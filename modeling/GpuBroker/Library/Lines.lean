/-
This file is a text as lines, each ended by a mark, and what comes after the
last of them.

A text that grows keeps the lines it has, and what comes after them begins
whatever the next line turns out to be. A text in one alphabet that is spelled
out in another has the same lines, spelled out, as long as only the mark is
spelled with a mark.
-/
import Mathlib.Data.List.Basic
import Mathlib.Data.List.Infix

namespace GpuBroker.Library

variable {α β : Type} [DecidableEq α] [DecidableEq β] {mark : α}

/-! ### Letters -/

/-- What is said of every letter of a text is decided letter by letter, and not for all letters there are. -/
instance (priority := 2000) decidableLetters (letters : List Char) (holds : Char → Prop) [DecidablePred holds] :
    Decidable (∀ letter ∈ letters, holds letter) :=
  List.decidableBAll holds letters

/-! ### Lines and the remainder -/

/-- The lines of a text that are ended by the mark. -/
def terminated (mark : α) : List α → List (List α)
  | [] => []
  | letter :: rest =>
      if letter = mark then [] :: terminated mark rest
      else
        match terminated mark rest with
        | [] => []
        | line :: lines => (letter :: line) :: lines

/-- What comes after the last mark of a text. -/
def remainder (mark : α) : List α → List α
  | [] => []
  | letter :: rest =>
      if letter ≠ mark ∧ terminated mark rest = [] then letter :: remainder mark rest
      else remainder mark rest

/-- Lines, each ended by the mark. -/
def joined (mark : α) (lines : List (List α)) : List α := lines.flatMap (· ++ [mark])

/-- A text without its first line. -/
def dropLine (mark : α) : List α → List α
  | [] => []
  | letter :: rest => if letter = mark then rest else dropLine mark rest

/-- A text without its first lines. -/
def dropLines (mark : α) : Nat → List α → List α
  | 0, text => text
  | count + 1, text => dropLines mark count (dropLine mark text)

omit [DecidableEq α] in
theorem joined_cons (line : List α) (lines : List (List α)) :
    joined mark (line :: lines) = line ++ mark :: joined mark lines := by
  unfold joined
  rw [List.flatMap_cons, List.append_assoc, List.singleton_append]

omit [DecidableEq α] in
theorem joined_append (first second : List (List α)) :
    joined mark (first ++ second) = joined mark first ++ joined mark second := List.flatMap_append

theorem terminated_append_mark {line : List α} (unmarked : mark ∉ line) (rest : List α) :
    terminated mark (line ++ mark :: rest) = line :: terminated mark rest := by
  induction line with
  | nil => exact if_pos rfl
  | cons letter line shorter =>
      rw [List.cons_append, terminated, if_neg (List.ne_of_not_mem_cons unmarked).symm,
        shorter (List.not_mem_of_not_mem_cons unmarked)]

theorem terminated_ne_nil {text : List α} (marked : mark ∈ text) : terminated mark text ≠ [] := by
  obtain ⟨line, rest, rfl, unmarked⟩ := List.eq_append_cons_of_mem marked
  rw [terminated_append_mark unmarked]
  exact List.cons_ne_nil _ _

theorem remainder_append_mark (line rest : List α) :
    remainder mark (line ++ mark :: rest) = remainder mark rest := by
  induction line with
  | nil => exact if_neg fun both => both.1 rfl
  | cons letter line shorter =>
      have found : mark ∈ line ++ mark :: rest := List.mem_append_right _ List.mem_cons_self
      rw [List.cons_append, remainder, if_neg fun both => terminated_ne_nil found both.2, shorter]

theorem dropLine_append_mark {line : List α} (unmarked : mark ∉ line) (rest : List α) :
    dropLine mark (line ++ mark :: rest) = rest := by
  induction line with
  | nil => exact if_pos rfl
  | cons letter line shorter =>
      rw [List.cons_append]
      unfold dropLine
      rw [if_neg (List.ne_of_not_mem_cons unmarked).symm, shorter (List.not_mem_of_not_mem_cons unmarked)]

/-- A text without the mark has no line of its own: it is all remainder. -/
theorem unterminated {text : List α} (unmarked : mark ∉ text) :
    terminated mark text = [] ∧ remainder mark text = text ∧ dropLine mark text = [] := by
  induction text with
  | nil => exact ⟨rfl, rfl, rfl⟩
  | cons letter rest shorter =>
      obtain ⟨lines, left, dropped⟩ := shorter (List.not_mem_of_not_mem_cons unmarked)
      have other : letter ≠ mark := (List.ne_of_not_mem_cons unmarked).symm
      refine ⟨?_, ?_, ?_⟩
      · unfold terminated
        rw [if_neg other, lines]
      · unfold remainder
        rw [if_pos ⟨other, lines⟩, left]
      · unfold dropLine
        rw [if_neg other, dropped]

/-- Every text is its lines and the remainder, none with a mark of its own. -/
theorem terminated_spec (mark : α) (text : List α) :
    joined mark (terminated mark text) ++ remainder mark text = text ∧
      (∀ line ∈ terminated mark text, mark ∉ line) ∧ mark ∉ remainder mark text := by
  by_cases marked : mark ∈ text
  · obtain ⟨line, rest, rfl, unmarked⟩ := List.eq_append_cons_of_mem marked
    obtain ⟨whole, clean, left⟩ := terminated_spec mark rest
    rw [terminated_append_mark unmarked, remainder_append_mark]
    refine ⟨?_, fun other member => ?_, left⟩
    · rw [joined_cons, List.append_assoc, List.cons_append, whole]
    · rcases List.mem_cons.mp member with rfl | later
      · exact unmarked
      · exact clean other later
  · obtain ⟨lines, left, _⟩ := unterminated marked
    rw [lines, left]
    exact ⟨rfl, fun line member => absurd member List.not_mem_nil, marked⟩
  termination_by text.length
  decreasing_by
    subst text
    simp
    omega

theorem unmarked_of_terminated {text line : List α} (member : line ∈ terminated mark text) : mark ∉ line :=
  (terminated_spec mark text).2.1 line member

theorem unmarked_remainder (mark : α) (text : List α) : mark ∉ remainder mark text :=
  (terminated_spec mark text).2.2

/-- A text that leaves no remainder is empty or ends with the mark. -/
theorem remainder_eq_nil {text : List α} (none : remainder mark text = []) :
    text = [] ∨ ∃ front, text = front ++ [mark] := by
  have whole := (terminated_spec mark text).1
  rw [none, List.append_nil] at whole
  rcases List.eq_nil_or_concat' (terminated mark text) with empty | ⟨lines, line, split⟩
  · rw [empty] at whole
    exact Or.inl whole.symm
  · refine Or.inr ⟨joined mark lines ++ line, ?_⟩
    rw [← whole, split, joined_append, joined_cons, List.append_assoc]
    rfl

/-- The lines of some lines and more are those lines, and the lines of the rest. -/
theorem terminated_joined {lines : List (List α)} (unmarked : ∀ line ∈ lines, mark ∉ line) (rest : List α) :
    terminated mark (joined mark lines ++ rest) = lines ++ terminated mark rest ∧
      remainder mark (joined mark lines ++ rest) = remainder mark rest := by
  induction lines with
  | nil => exact ⟨rfl, rfl⟩
  | cons line lines shorter =>
      obtain ⟨later, left⟩ := shorter fun other member => unmarked other (List.mem_cons_of_mem _ member)
      rw [joined_cons, List.append_assoc, List.cons_append,
        terminated_append_mark (unmarked line List.mem_cons_self), remainder_append_mark, later, left]
      exact ⟨rfl, rfl⟩

/-- Lines and a remainder, read back. -/
theorem terminated_unique {lines : List (List α)} {rest : List α} (unmarked : ∀ line ∈ lines, mark ∉ line)
    (clean : mark ∉ rest) :
    terminated mark (joined mark lines ++ rest) = lines ∧ remainder mark (joined mark lines ++ rest) = rest := by
  obtain ⟨all, left⟩ := terminated_joined unmarked rest
  obtain ⟨none, whole, _⟩ := unterminated clean
  rw [all, left, none, whole, List.append_nil]
  exact ⟨rfl, rfl⟩

/-- What is left of a text without its first lines: the later lines, and the remainder unless more lines are
left out than there are. -/
theorem dropLines_eq (count : Nat) (text : List α) :
    dropLines mark count text = joined mark ((terminated mark text).drop count) ++
      if count ≤ (terminated mark text).length then remainder mark text else [] := by
  induction count generalizing text with
  | zero =>
      rw [List.drop_zero, if_pos (Nat.zero_le _), (terminated_spec mark text).1]
      rfl
  | succ count shorter =>
      unfold dropLines
      by_cases marked : mark ∈ text
      · obtain ⟨line, rest, rfl, unmarked⟩ := List.eq_append_cons_of_mem marked
        rw [dropLine_append_mark unmarked, shorter, terminated_append_mark unmarked, remainder_append_mark,
          List.drop_succ_cons, List.length_cons]
        simp only [Nat.add_le_add_iff_right]
      · obtain ⟨none, _, dropped⟩ := unterminated marked
        have beyond : ¬ count + 1 ≤ ([] : List (List α)).length := Nat.not_succ_le_zero count
        rw [dropped, shorter, none, List.drop_nil, if_neg beyond]
        simp [terminated, remainder]

/-! ### Texts that grow -/

/-- A longer text has the lines of a shorter one, and the remainder begins its next line, or its own
remainder where there is none. -/
theorem terminated_grows (mark : α) {text later : List α} (grows : text <+: later) :
    terminated mark text <+: terminated mark later ∧
      remainder mark text <+: ((terminated mark later)[(terminated mark text).length]?).getD
        (remainder mark later) := by
  obtain ⟨more, rfl⟩ := grows
  have split : text ++ more = joined mark (terminated mark text) ++ (remainder mark text ++ more) := by
    rw [← List.append_assoc, (terminated_spec mark text).1]
  obtain ⟨lines, left⟩ := terminated_joined (terminated_spec mark text).2.1 (remainder mark text ++ more)
  rw [split, lines, left]
  refine ⟨List.prefix_append _ _, ?_⟩
  rw [List.getElem?_append_right le_rfl, Nat.sub_self]
  by_cases marked : mark ∈ more
  · obtain ⟨line, rest, rfl, unmarked⟩ := List.eq_append_cons_of_mem marked
    have clean : mark ∉ remainder mark text ++ line := by
      rw [List.mem_append]
      rintro (before | after)
      · exact unmarked_remainder mark text before
      · exact unmarked after
    rw [← List.append_assoc, terminated_append_mark clean]
    exact List.prefix_append _ _
  · have clean : mark ∉ remainder mark text ++ more := by
      rw [List.mem_append]
      rintro (before | after)
      · exact unmarked_remainder mark text before
      · exact marked after
    obtain ⟨none, whole, _⟩ := unterminated clean
    rw [none, whole]
    exact List.prefix_append _ _

/-! ### All lines -/

/-- The lines of a text, of which the last need not be ended. -/
def allLines (mark : α) (text : List α) : List (List α) :=
  terminated mark text ++ if remainder mark text = [] then [] else [remainder mark text]

/-- There are as many ended lines as marks. -/
theorem length_terminated (mark : α) (text : List α) : (terminated mark text).length = text.count mark := by
  induction text with
  | nil => rfl
  | cons letter rest shorter =>
      unfold terminated
      by_cases ends : letter = mark
      · rw [if_pos ends, List.length_cons, shorter, ends, List.count_cons_self]
      · rw [if_neg ends, List.count_cons_of_ne ends, ← shorter]
        cases terminated mark rest <;> rfl

theorem allLines_nil : allLines mark ([] : List α) = [] := rfl

theorem allLines_append_mark {line : List α} (unmarked : mark ∉ line) (rest : List α) :
    allLines mark (line ++ mark :: rest) = line :: allLines mark rest := by
  unfold allLines
  rw [terminated_append_mark unmarked, remainder_append_mark, List.cons_append]

theorem allLines_unmarked {line : List α} (unmarked : mark ∉ line) (nonempty : line ≠ []) :
    allLines mark line = [line] := by
  obtain ⟨none, whole, -⟩ := unterminated unmarked
  unfold allLines
  rw [none, whole, if_neg nonempty, List.nil_append]

theorem allLines_eq_nil {text : List α} : allLines mark text = [] ↔ text = [] := by
  refine ⟨fun none => ?_, fun none => none ▸ rfl⟩
  by_cases marked : mark ∈ text
  · obtain ⟨line, rest, rfl, unmarked⟩ := List.eq_append_cons_of_mem marked
    rw [allLines_append_mark unmarked] at none
    exact nomatch none
  · by_contra nonempty
    rw [allLines_unmarked marked nonempty] at none
    exact nomatch none

/-- In a longer text a line goes on where the text stops, unless the line is ended there or both stop. -/
def Ended (mark : α) (text later : List α) : Prop := later = text ∨ text ++ [mark] <+: later

instance (text later : List α) : Decidable (Ended mark text later) := inferInstanceAs (Decidable (_ ∨ _))

/-- The first line of a text that begins with a line, and what it says of what comes next. -/
theorem allLines_begun {line : List α} (unmarked : mark ∉ line) (nonempty : line ≠ []) (more : List α) :
    ∃ whole rest, allLines mark (line ++ more) = whole :: rest ∧
      (whole = line ↔ more = [] ∨ [mark] <+: more) ∧ (whole = line ∧ rest = [] ↔ more = [] ∨ more = [mark]) := by
  by_cases marked : mark ∈ more
  · obtain ⟨front, back, rfl, clean⟩ := List.eq_append_cons_of_mem marked
    have both : mark ∉ line ++ front := fun member => (List.mem_append.mp member).elim unmarked clean
    refine ⟨line ++ front, allLines mark back, ?_, ?_, ?_⟩
    · rw [← List.append_assoc, allLines_append_mark both]
    · rw [List.append_right_eq_self]
      cases front with
      | nil => simp
      | cons letter front =>
          have other : mark ≠ letter := List.ne_of_not_mem_cons clean
          simp [other]
    · rw [List.append_right_eq_self, allLines_eq_nil]
      cases front with
      | nil => simp
      | cons letter front => simp
  · have both : mark ∉ line ++ more := fun member => (List.mem_append.mp member).elim unmarked marked
    refine ⟨line ++ more, [], allLines_unmarked both (List.append_ne_nil_of_left_ne_nil nonempty more), ?_, ?_⟩
    · rw [List.append_right_eq_self]
      refine ⟨Or.inl, ?_⟩
      rintro (none | ⟨rest, rfl⟩)
      · exact none
      · exact absurd List.mem_cons_self marked
    · rw [List.append_right_eq_self]
      refine ⟨fun both => Or.inl both.1, ?_⟩
      rintro (none | rfl)
      · exact ⟨none, rfl⟩
      · exact absurd List.mem_cons_self marked

/-- The lines of a longer text: those that a shorter one ends, the one it stops in, and the rest. -/
theorem allLines_grows {text later : List α} (grows : text <+: later) (stops : remainder mark text ≠ []) :
    ∃ line rest, allLines mark later = terminated mark text ++ line :: rest ∧
      (line = remainder mark text ↔ Ended mark text later) ∧
      (line = remainder mark text ∧ rest = [] ↔ later = text ∨ later = text ++ [mark]) := by
  obtain ⟨more, rfl⟩ := grows
  obtain ⟨lines, left⟩ := terminated_joined (terminated_spec mark text).2.1 (remainder mark text ++ more)
  obtain ⟨line, rest, begun, ended, last⟩ := allLines_begun (unmarked_remainder mark text) stops more
  have split : text ++ more = joined mark (terminated mark text) ++ (remainder mark text ++ more) := by
    rw [← List.append_assoc, (terminated_spec mark text).1]
  refine ⟨line, rest, ?_, ended.trans ?_, last.trans ?_⟩
  · rw [split, allLines, lines, left, List.append_assoc, ← begun]
    rfl
  · rw [Ended, List.append_right_eq_self, List.prefix_append_right_inj]
  · rw [List.append_right_eq_self, List.append_cancel_left_eq]

/-! ### Following a text -/

/-- What is reported of a text that is followed: of each view of it, whose last line need not be whole, the lines
beyond those that were reported. -/
def followed (mark : α) : Nat → List (List α) → List (List α)
  | _, [] => []
  | seen, text :: texts =>
      let lines := terminated mark text ++ [remainder mark text]
      if lines.length ≤ seen then followed mark seen texts
      else lines.drop seen ++ followed mark lines.length texts

/-- Each view that shows more lines than the reported ones and than the views before it stops at the end of a line, and
all lines are reported or some view shows all of the text. -/
def FollowedWhole (mark : α) (later : List α) (seen : Nat) (texts : List (List α)) : Prop :=
  (∀ before text after, texts = before ++ text :: after → seen ≤ text.count mark →
    (∀ earlier ∈ before, earlier.count mark < text.count mark) → Ended mark text later) ∧
  (seen = (allLines mark later).length ∨ ∃ text ∈ texts, later = text ∨ later = text ++ [mark])

/-- A view that shows no more lines may be left out. -/
theorem followedWhole_stale {later text : List α} {texts : List (List α)} {seen : Nat}
    (stale : text.count mark < seen)
    (all : later = text ∨ later = text ++ [mark] → seen = (allLines mark later).length) :
    FollowedWhole mark later seen (text :: texts) ↔ FollowedWhole mark later seen texts := by
  refine and_congr ⟨fun ended before next after split more fresh => ?_, fun ended before next after split more fresh => ?_⟩
    ⟨?_, ?_⟩
  · refine ended (text :: before) next after (by rw [split]; rfl) more fun earlier member => ?_
    rcases List.mem_cons.mp member with rfl | member
    · exact stale.trans_le more
    · exact fresh earlier member
  · cases before with
    | nil =>
        obtain ⟨rfl, -⟩ := List.cons.inj split
        exact absurd more (not_le.mpr stale)
    | cons first before =>
        obtain ⟨rfl, beyond⟩ := List.cons.inj split
        exact ended before next after beyond more fun earlier member => fresh earlier (List.mem_cons_of_mem _ member)
  · rintro (done | ⟨shown, member, whole⟩)
    · exact Or.inl done
    · rcases List.mem_cons.mp member with rfl | member
      · exact Or.inl (all whole)
      · exact Or.inr ⟨shown, member, whole⟩
  · rintro (done | ⟨shown, member, whole⟩)
    · exact Or.inl done
    · exact Or.inr ⟨shown, List.mem_cons_of_mem _ member, whole⟩

/-- A view that shows more lines, and stops at the end of one, counts as reported from then on. -/
theorem followedWhole_fresh {later text : List α} {texts : List (List α)} {seen : Nat}
    (fresh : seen ≤ text.count mark) (ended : Ended mark text later) (left : seen ≠ (allLines mark later).length)
    (all : later = text ∨ later = text ++ [mark] ↔ text.count mark + 1 = (allLines mark later).length) :
    FollowedWhole mark later seen (text :: texts) ↔ FollowedWhole mark later (text.count mark + 1) texts := by
  refine and_congr ⟨fun stops before next after split more newer => ?_, fun stops before next after split more newer => ?_⟩
    ⟨?_, ?_⟩
  · refine stops (text :: before) next after (by rw [split]; rfl) (fresh.trans (Nat.le_of_succ_le more))
      fun earlier member => ?_
    rcases List.mem_cons.mp member with rfl | member
    · exact more
    · exact newer earlier member
  · cases before with
    | nil =>
        obtain ⟨rfl, -⟩ := List.cons.inj split
        exact ended
    | cons first before =>
        obtain ⟨rfl, beyond⟩ := List.cons.inj split
        exact stops before next after beyond (newer text List.mem_cons_self)
          fun earlier member => newer earlier (List.mem_cons_of_mem _ member)
  · rintro (done | ⟨shown, member, whole⟩)
    · exact absurd done left
    · rcases List.mem_cons.mp member with rfl | member
      · exact Or.inl (all.mp whole)
      · exact Or.inr ⟨shown, member, whole⟩
  · rintro (done | ⟨shown, member, whole⟩)
    · exact Or.inr ⟨text, List.mem_cons_self, all.mpr done⟩
    · exact Or.inr ⟨shown, List.mem_cons_of_mem _ member, whole⟩

/-- Views that stop within a line report the lines of the text, each once and whole, if and only if those that show
more lines stop at the end of one and one of them shows all. -/
theorem followed_iff {later : List α} : ∀ {texts : List (List α)} {seen : Nat},
    (∀ text ∈ texts, text <+: later ∧ remainder mark text ≠ []) → seen ≤ (allLines mark later).length →
      ((allLines mark later).take seen ++ followed mark seen texts = allLines mark later ↔
        FollowedWhole mark later seen texts)
  | [], seen, _, within => by
      rw [followed, List.append_nil, List.take_eq_self_iff]
      refine ⟨fun all => ⟨fun before text after split => ?_, Or.inl (within.antisymm all)⟩, fun whole => ?_⟩
      · exact absurd split (by simp)
      · rcases whole.2 with done | ⟨text, member, -⟩
        · exact done.ge
        · exact absurd member List.not_mem_nil
  | text :: texts, seen, views, within => by
      obtain ⟨grows, stops⟩ := views text List.mem_cons_self
      have others := fun other member => views other (List.mem_cons_of_mem text member)
      obtain ⟨line, rest, lines, ended, last⟩ := allLines_grows grows stops
      have count : (terminated mark text ++ [remainder mark text]).length = text.count mark + 1 := by
        rw [List.length_append, length_terminated]
        rfl
      have length : (allLines mark later).length = text.count mark + 1 + rest.length := by
        rw [lines, List.length_append, length_terminated, List.length_cons]
        omega
      rw [followed]
      by_cases stale : text.count mark < seen
      · rw [if_pos (count ▸ stale), followed_iff others within]
        refine (followedWhole_stale stale fun whole => ?_).symm
        have none := (last.mpr whole).2
        rw [none, List.length_nil, Nat.add_zero] at length
        omega
      · have fresh : seen ≤ text.count mark := not_lt.mp stale
        have shown : (allLines mark later).take seen ++
            ((terminated mark text ++ [remainder mark text]).drop seen ++ followed mark (text.count mark + 1) texts) =
              terminated mark text ++ remainder mark text :: followed mark (text.count mark + 1) texts := by
          have few : seen ≤ (terminated mark text).length := length_terminated mark text ▸ fresh
          rw [lines, List.take_append_of_le_length few, List.drop_append_of_le_length few, ← List.append_assoc,
            ← List.append_assoc, List.take_append_drop, List.append_assoc]
          rfl
        have later_than : ¬ (terminated mark text ++ [remainder mark text]).length ≤ seen := by
          rw [count]
          omega
        rw [if_neg later_than, count, shown]
        by_cases whole : line = remainder mark text
        · have taken : (allLines mark later).take (text.count mark + 1) = terminated mark text ++ [remainder mark text] := by
            rw [lines, whole, ← length_terminated, List.take_length_add_append]
            rfl
          rw [List.append_cons, ← taken, followed_iff others (by omega)]
          refine (followedWhole_fresh fresh (ended.mp whole) (by omega) ?_).symm
          rw [← last, length]
          refine ⟨fun both => by rw [both.2]; rfl, fun all => ⟨whole, List.length_eq_zero_iff.mp (by omega)⟩⟩
        · refine ⟨fun same => ?_, fun follows => ?_⟩
          · rw [lines] at same
            exact absurd (List.cons.inj (List.append_cancel_left same)).1.symm whole
          · exact absurd (ended.mpr (follows.1 [] text texts rfl fresh fun _ none => absurd none List.not_mem_nil)) whole

/-! ### Spelling -/

/-- Each letter of one alphabet is spelled in another, and only the mark with a mark. -/
structure Spells (spell : α → List β) (mark : α) (sign : β) : Prop where
  itself : spell mark = [sign]
  others : ∀ letter, letter ≠ mark → sign ∉ spell letter

omit [DecidableEq α] [DecidableEq β] in
/-- Lines spelled out are the spellings of the lines. -/
theorem joined_spelled {spell : α → List β} {sign : β} (spells : Spells spell mark sign) (lines : List (List α)) :
    (joined mark lines).flatMap spell = joined sign (lines.map (·.flatMap spell)) := by
  induction lines with
  | nil => rfl
  | cons line lines shorter =>
      rw [List.map_cons, joined_cons, joined_cons, List.flatMap_append, List.flatMap_cons, spells.itself,
        shorter]
      rfl

/-- The lines of a text that is spelled out are its lines spelled out, and so is the remainder. -/
theorem terminated_spelled {spell : α → List β} {sign : β} (spells : Spells spell mark sign) (text : List α) :
    terminated sign (text.flatMap spell) = (terminated mark text).map (·.flatMap spell) ∧
      remainder sign (text.flatMap spell) = (remainder mark text).flatMap spell := by
  have clean : ∀ {line : List α}, mark ∉ line → sign ∉ line.flatMap spell := by
    intro line unmarked member
    obtain ⟨letter, there, spelled⟩ := List.mem_flatMap.mp member
    exact spells.others letter (fun same => unmarked (same ▸ there)) spelled
  obtain ⟨whole, unmarked, left⟩ := terminated_spec mark text
  have spelled := congrArg (·.flatMap spell) whole
  simp only [List.flatMap_append, joined_spelled spells] at spelled
  rw [← spelled]
  refine terminated_unique (fun line member => ?_) (clean left)
  obtain ⟨plain, there, rfl⟩ := List.mem_map.mp member
  exact clean (unmarked plain there)

end GpuBroker.Library
