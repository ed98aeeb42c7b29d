/-
This file is JSON as Python writes it on one line: every letter outside ASCII is
spelled out, and the names of an object stand in order.

The text of a document says which document it is. It is read from the front, and
each part shows where it ends, so that what follows two equal parts is equal too;
only a numeral has no end of its own, and is ended by what follows.
-/
import Mathlib.Data.Char
import Mathlib.Data.List.Lex
import Mathlib.Data.List.Sort

namespace GpuBroker.Library

/-! ### Codes that show where they end -/

/-- Each letter is spelled so that a text shows where the spelling of its first one ends. -/
def Separates {α β : Type} (spell : α → List β) : Prop :=
  ∀ one other rest more, spell one ++ rest = spell other ++ more → one = other ∧ rest = more

/-- Letters that are spelled one after another and ended by a mark that begins none of them. -/
theorem Separates.ended {α β : Type} {spell : α → List β} (separates : Separates spell) {mark : β}
    (begins : ∀ letter, ∃ first tail, spell letter = first :: tail ∧ first ≠ mark)
    {one other : List α} {rest more : List β}
    (same : one.flatMap spell ++ mark :: rest = other.flatMap spell ++ mark :: more) :
    one = other ∧ rest = more := by
  induction one generalizing other with
  | nil =>
      cases other with
      | nil => exact ⟨rfl, List.cons.inj same |>.2⟩
      | cons letter letters =>
          obtain ⟨first, tail, spelled, unlike⟩ := begins letter
          rw [List.flatMap_cons, spelled] at same
          exact absurd (List.cons.inj same).1.symm unlike
  | cons letter letters shorter =>
      cases other with
      | nil =>
          obtain ⟨first, tail, spelled, unlike⟩ := begins letter
          rw [List.flatMap_cons, spelled] at same
          exact absurd (List.cons.inj same).1 unlike
      | cons another others =>
          rw [List.flatMap_cons, List.flatMap_cons, List.append_assoc, List.append_assoc] at same
          obtain ⟨rfl, after⟩ := separates _ _ _ _ same
          obtain ⟨rfl, left⟩ := shorter after
          exact ⟨rfl, left⟩

/-- A front of letters of one kind ends where the first of another kind begins. -/
theorem front_inj {α : Type} {kind : α → Prop} {one other rest more : List α} (held : ∀ letter ∈ one, kind letter)
    (kept : ∀ letter ∈ other, kind letter) (ends : ∀ first tail, rest = first :: tail → ¬kind first)
    (stops : ∀ first tail, more = first :: tail → ¬kind first) (same : one ++ rest = other ++ more) :
    one = other ∧ rest = more := by
  rcases List.append_eq_append_iff.mp same with ⟨middle, rfl, rfl⟩ | ⟨middle, rfl, rfl⟩
  · cases middle with
    | nil => exact ⟨(List.append_nil _).symm, rfl⟩
    | cons first tail => exact absurd (kept first (List.mem_append_right _ List.mem_cons_self)) (ends first _ rfl)
  · cases middle with
    | nil => exact ⟨List.append_nil _, rfl⟩
    | cons first tail => exact absurd (held first (List.mem_append_right _ List.mem_cons_self)) (stops first _ rfl)

/-! ### Letters -/

/-- The letters that have an escape of their own, and what comes after the backslash. -/
def shortEscapes : List (Char × Char) :=
  [('"', '"'), ('\\', '\\'), ('\n', 'n'), ('\r', 'r'), ('\t', 't'), ('\x08', 'b'), ('\x0c', 'f')]

/-- A unit of sixteen bits in four digits. -/
def spelledUnit (code : Nat) : List Char :=
  ['\\', 'u', Nat.digitChar (code / 4096), Nat.digitChar (code / 256 % 16), Nat.digitChar (code / 16 % 16),
    Nat.digitChar (code % 16)]

/-- A letter in units of sixteen bits. -/
def utf16 (letter : Char) : List Nat :=
  if letter.toNat < 65536 then [letter.toNat]
  else [55296 + (letter.toNat - 65536) / 1024, 56320 + (letter.toNat - 65536) % 1024]

/-- A letter inside a string. -/
def escaped (letter : Char) : List Char :=
  match shortEscapes.lookup letter with
  | some short => ['\\', short]
  | none => if ' ' ≤ letter ∧ letter ≤ '~' then [letter] else (utf16 letter).flatMap spelledUnit

/-- A string in quotation marks. -/
def quoted (letters : List Char) : List Char := '"' :: (letters.flatMap escaped ++ ['"'])

theorem digitChar_inj {one other : Nat} (small : one < 16) (least : other < 16)
    (same : Nat.digitChar one = Nat.digitChar other) : one = other := by
  have digits : ∀ first second : Fin 16, Nat.digitChar first = Nat.digitChar second → first = second := by decide
  exact congrArg Fin.val (digits ⟨one, small⟩ ⟨other, least⟩ same)

theorem spelledUnit_inj {one other : Nat} {rest more : List Char} (small : one < 65536) (least : other < 65536)
    (same : spelledUnit one ++ rest = spelledUnit other ++ more) : one = other ∧ rest = more := by
  simp only [spelledUnit, List.cons_append, List.nil_append, List.cons.injEq, true_and] at same
  obtain ⟨first, second, third, fourth, left⟩ := same
  have one₁ := digitChar_inj (by omega) (by omega) first
  have one₂ := digitChar_inj (by omega) (by omega) second
  have one₃ := digitChar_inj (by omega) (by omega) third
  have one₄ := digitChar_inj (by omega) (by omega) fourth
  exact ⟨by omega, left⟩

/-- The numbers of letters leave out those of the halves of a pair. -/
theorem toNat_bounds (letter : Char) :
    letter.toNat < 55296 ∨ 57343 < letter.toNat ∧ letter.toNat < 1114112 := letter.valid

/-- Units show where a letter ends: no letter is the first half of a pair. -/
theorem separates_utf16 : Separates fun letter => (utf16 letter).flatMap spelledUnit := by
  intro one other rest more same
  have bound := toNat_bounds one
  have limit := toNat_bounds other
  have equal : one.toNat = other.toNat → one = other := fun numbers => Char.toNat_inj.mp numbers
  simp only [utf16] at same
  split at same <;> split at same <;>
    simp only [List.flatMap_cons, List.flatMap_nil, List.append_nil, List.append_assoc] at same
  · obtain ⟨numbers, left⟩ := spelledUnit_inj (by omega) (by omega) same
    exact ⟨equal numbers, left⟩
  · obtain ⟨numbers, _⟩ := spelledUnit_inj (by omega) (by omega) same
    omega
  · obtain ⟨numbers, _⟩ := spelledUnit_inj (by omega) (by omega) same
    omega
  · obtain ⟨high, pair⟩ := spelledUnit_inj (by omega) (by omega) same
    obtain ⟨low, left⟩ := spelledUnit_inj (by omega) (by omega) pair
    exact ⟨equal (by omega), left⟩

/-- A letter has an escape of its own, stands for itself, or is spelled out in units. -/
theorem escaped_cases (letter : Char) :
    (∃ short, (letter, short) ∈ shortEscapes ∧ escaped letter = ['\\', short]) ∨
      (letter ≠ '"' ∧ letter ≠ '\\' ∧ escaped letter = [letter]) ∨
      escaped letter = (utf16 letter).flatMap spelledUnit := by
  unfold escaped
  split
  · next short found =>
      obtain ⟨before, after, table, _⟩ := List.lookup_eq_some_iff.mp found
      exact Or.inl ⟨short, table ▸ List.mem_append_right _ List.mem_cons_self, rfl⟩
  · next missing =>
      refine Or.inr ?_
      split
      · refine Or.inl ⟨?_, ?_, rfl⟩ <;> rintro rfl <;> exact absurd missing (by decide)
      · exact Or.inr rfl

theorem utf16_spelled (letter : Char) : ∃ tail, (utf16 letter).flatMap spelledUnit = '\\' :: 'u' :: tail := by
  unfold utf16
  split
  · exact ⟨_, rfl⟩
  · exact ⟨_, rfl⟩

theorem short_ne_u {letter short : Char} (known : (letter, short) ∈ shortEscapes) : short ≠ 'u' := by
  have all : ∀ pair ∈ shortEscapes, pair.2 ≠ 'u' := by decide
  exact all _ known

theorem short_inj {one other short : Char} (known : (one, short) ∈ shortEscapes)
    (too : (other, short) ∈ shortEscapes) : one = other := by
  have all : ∀ pair ∈ shortEscapes, ∀ another ∈ shortEscapes, pair.2 = another.2 → pair.1 = another.1 := by decide
  exact all _ known _ too rfl

theorem separates_escaped : Separates escaped := by
  intro one other rest more same
  obtain ⟨tail, spelled⟩ := utf16_spelled one
  obtain ⟨end_, written⟩ := utf16_spelled other
  rcases escaped_cases one with ⟨short, known, shape⟩ | ⟨_, slash, shape⟩ | shape <;>
    rcases escaped_cases other with ⟨mark, too, form⟩ | ⟨_, stroke, form⟩ | form <;>
    rw [shape, form] at same
  · simp only [List.cons_append, List.nil_append, List.cons.injEq, true_and] at same
    obtain ⟨rfl, left⟩ := same
    exact ⟨short_inj known too, left⟩
  · exact absurd (List.cons.inj same).1.symm stroke
  · rw [written] at same
    simp only [List.cons_append, List.nil_append, List.cons.injEq, true_and] at same
    exact absurd same.1 (short_ne_u known)
  · exact absurd (List.cons.inj same).1 slash
  · simp only [List.cons_append, List.nil_append, List.cons.injEq] at same
    exact same
  · rw [written] at same
    exact absurd (List.cons.inj same).1 slash
  · rw [spelled] at same
    simp only [List.cons_append, List.nil_append, List.cons.injEq, true_and] at same
    exact absurd same.1.symm (short_ne_u too)
  · rw [spelled] at same
    exact absurd (List.cons.inj same).1.symm stroke
  · exact separates_utf16 _ _ _ _ same

theorem escaped_begins (letter : Char) : ∃ first tail, escaped letter = first :: tail ∧ first ≠ '"' := by
  rcases escaped_cases letter with ⟨short, _, shape⟩ | ⟨mark, _, shape⟩ | shape
  · exact ⟨_, _, shape, by decide⟩
  · exact ⟨_, _, shape, mark⟩
  · obtain ⟨tail, spelled⟩ := utf16_spelled letter
    exact ⟨_, _, shape.trans spelled, by decide⟩

theorem separates_quoted : Separates quoted := by
  intro one other rest more same
  simp only [quoted, List.cons_append, List.append_assoc, List.nil_append, List.cons.injEq, true_and] at same
  exact separates_escaped.ended escaped_begins same

/-! ### Documents -/

/-- What JSON stands for; a kind of numbers is a parameter. -/
inductive Document (Number : Type) where
  | null
  | boolean (value : Bool)
  | number (value : Number)
  | text (letters : List Char)
  | array (items : List (Document Number))
  | object (fields : List (List Char × Document Number))

/-- A letter that ends a numeral. -/
def Stops (letter : Char) : Prop := letter = ',' ∨ letter = ']' ∨ letter = '}'

/-- How numbers are written: one way for each, without a letter that ends a numeral, and not as another
document begins. -/
structure Numerals (Number : Type) where
  write : Number → List Char
  inj : ∀ one other, write one = write other → one = other
  unstopped : ∀ value, ∀ letter ∈ write value, ¬Stops letter
  begins : ∀ value, ∃ first tail, write value = first :: tail ∧ first ∉ ['n', 't', 'f', '"', '[', '{']

variable {Number : Type} (numerals : Numerals Number)

mutual

/-- The text of a document, without spaces and with fields as they stand. -/
def dump : Document Number → List Char
  | .null => ['n', 'u', 'l', 'l']
  | .boolean true => ['t', 'r', 'u', 'e']
  | .boolean false => ['f', 'a', 'l', 's', 'e']
  | .number value => numerals.write value
  | .text letters => quoted letters
  | .array [] => ['[', ']']
  | .array (item :: items) => '[' :: (dump item ++ (dumpItems items ++ [']']))
  | .object [] => ['{', '}']
  | .object ((name, value) :: fields) => '{' :: (quoted name ++ ':' :: (dump value ++ (dumpFields fields ++ ['}'])))

/-- Further items of an array. -/
def dumpItems : List (Document Number) → List Char
  | [] => []
  | item :: items => ',' :: (dump item ++ dumpItems items)

/-- Further fields of an object. -/
def dumpFields : List (List Char × Document Number) → List Char
  | [] => []
  | (name, value) :: fields => ',' :: (quoted name ++ ':' :: (dump value ++ dumpFields fields))

end

/-- What follows a document: nothing, or a letter that ends a numeral. -/
def Stopped (rest : List Char) : Prop := ∀ first tail, rest = first :: tail → Stops first

theorem Stopped.nil : Stopped [] := fun _ _ same => by cases same

theorem Stopped.cons {first : Char} {tail : List Char} (stops : Stops first) : Stopped (first :: tail) := by
  rintro _ _ ⟨⟩
  exact stops

theorem stopped_dumpItems (items : List (Document Number)) (rest : List Char) :
    Stopped (dumpItems numerals items ++ ']' :: rest) := by
  cases items with
  | nil => exact Stopped.cons (Or.inr (Or.inl rfl))
  | cons item items => exact Stopped.cons (Or.inl rfl)

theorem stopped_dumpFields (fields : List (List Char × Document Number)) (rest : List Char) :
    Stopped (dumpFields numerals fields ++ '}' :: rest) := by
  cases fields with
  | nil => exact Stopped.cons (Or.inr (Or.inr rfl))
  | cons field fields => exact Stopped.cons (Or.inl rfl)

/-- The letter a document begins with, where it is not a number. -/
def Document.opening : Document Number → Option Char
  | .null => some 'n'
  | .boolean true => some 't'
  | .boolean false => some 'f'
  | .number _ => none
  | .text _ => some '"'
  | .array _ => some '['
  | .object _ => some '{'

/-- A document begins as its kind does. -/
theorem dump_begins (document : Document Number) :
    ∃ first tail, dump numerals document = first :: tail ∧ ¬Stops first ∧
      document.opening = if first ∈ ['n', 't', 'f', '"', '[', '{'] then some first else none := by
  have marks : ¬Stops 'n' ∧ ¬Stops 't' ∧ ¬Stops 'f' ∧ ¬Stops '"' ∧ ¬Stops '[' ∧ ¬Stops '{' := by
    unfold Stops
    decide
  obtain ⟨n, t, f, quote, bracket, brace⟩ := marks
  match document with
  | .null => exact ⟨'n', _, by rw [dump], n, rfl⟩
  | .boolean true => exact ⟨'t', _, by rw [dump], t, rfl⟩
  | .boolean false => exact ⟨'f', _, by rw [dump], f, rfl⟩
  | .number value =>
      obtain ⟨first, tail, written, unlike⟩ := numerals.begins value
      refine ⟨first, tail, by rw [dump, written], numerals.unstopped value first ?_, (if_neg unlike).symm⟩
      rw [written]
      exact List.mem_cons_self
  | .text letters => exact ⟨'"', _, by rw [dump, quoted], quote, rfl⟩
  | .array [] => exact ⟨'[', _, by rw [dump], bracket, rfl⟩
  | .array (item :: items) => exact ⟨'[', _, by rw [dump], bracket, rfl⟩
  | .object [] => exact ⟨'{', _, by rw [dump], brace, rfl⟩
  | .object ((name, value) :: fields) => exact ⟨'{', _, by rw [dump], brace, rfl⟩

theorem opening_eq {one other : Document Number} {rest more : List Char}
    (same : dump numerals one ++ rest = dump numerals other ++ more) : one.opening = other.opening := by
  obtain ⟨first, tail, written, _, kind⟩ := dump_begins numerals one
  obtain ⟨second, trail, read, _, sort⟩ := dump_begins numerals other
  rw [written, read] at same
  obtain ⟨rfl, _⟩ := List.cons.inj same
  rw [kind, sort]

/-- A document does not begin with the letter that closes an array. -/
theorem dump_ne_close (document : Document Number) (rest more : List Char) :
    dump numerals document ++ rest ≠ ']' :: more := by
  obtain ⟨first, tail, written, goes, _⟩ := dump_begins numerals document
  rw [written]
  rintro ⟨⟩
  exact goes (Or.inr (Or.inl rfl))

mutual

/-- A text that begins with a document begins with no other. -/
theorem dump_inj (one other : Document Number) (rest more : List Char) (stopped : Stopped rest)
    (halted : Stopped more) (same : dump numerals one ++ rest = dump numerals other ++ more) :
    one = other ∧ rest = more := by
  have kinds := opening_eq numerals same
  match one, other with
  | .null, .null => exact ⟨rfl, List.append_cancel_left same⟩
  | .boolean true, .boolean true => exact ⟨rfl, List.append_cancel_left same⟩
  | .boolean false, .boolean false => exact ⟨rfl, List.append_cancel_left same⟩
  | .number value, .number another =>
      rw [dump, dump] at same
      obtain ⟨written, left⟩ := front_inj (numerals.unstopped value) (numerals.unstopped another)
        (fun first tail ends => not_not_intro (stopped first tail ends))
        (fun first tail ends => not_not_intro (halted first tail ends)) same
      exact ⟨congrArg Document.number (numerals.inj _ _ written), left⟩
  | .text letters, .text others =>
      rw [dump, dump] at same
      obtain ⟨rfl, left⟩ := separates_quoted _ _ _ _ same
      exact ⟨rfl, left⟩
  | .array [], .array [] => exact ⟨rfl, List.append_cancel_left same⟩
  | .array [], .array (item :: items) =>
      simp only [dump, List.cons_append, List.append_assoc, List.nil_append, List.cons.injEq, true_and] at same
      exact absurd same.symm (dump_ne_close numerals _ _ _)
  | .array (item :: items), .array [] =>
      simp only [dump, List.cons_append, List.append_assoc, List.nil_append, List.cons.injEq, true_and] at same
      exact absurd same (dump_ne_close numerals _ _ _)
  | .array (item :: items), .array (another :: others) =>
      simp only [dump, List.cons_append, List.append_assoc, List.nil_append, List.cons.injEq, true_and] at same
      obtain ⟨rfl, after⟩ := dump_inj item another _ _ (stopped_dumpItems numerals _ _)
        (stopped_dumpItems numerals _ _) same
      obtain ⟨rfl, left⟩ := dumpItems_inj items others _ _ after
      exact ⟨rfl, left⟩
  | .object [], .object [] => exact ⟨rfl, List.append_cancel_left same⟩
  | .object [], .object ((name, value) :: fields) =>
      simp [dump, quoted] at same
  | .object ((name, value) :: fields), .object [] =>
      simp [dump, quoted] at same
  | .object ((name, value) :: fields), .object ((title, content) :: others) =>
      simp only [dump, List.cons_append, List.append_assoc, List.nil_append, List.cons.injEq, true_and] at same
      obtain ⟨rfl, behind⟩ := separates_quoted _ _ _ _ same
      obtain ⟨rfl, after⟩ := dump_inj value content _ _ (stopped_dumpFields numerals _ _)
        (stopped_dumpFields numerals _ _) (List.cons.inj behind).2
      obtain ⟨rfl, left⟩ := dumpFields_inj fields others _ _ after
      exact ⟨rfl, left⟩

theorem dumpItems_inj (one other : List (Document Number)) (rest more : List Char)
    (same : dumpItems numerals one ++ ']' :: rest = dumpItems numerals other ++ ']' :: more) :
    one = other ∧ rest = more := by
  match one, other with
  | [], [] => exact ⟨rfl, (List.cons.inj same).2⟩
  | [], item :: items => simp [dumpItems] at same
  | item :: items, [] => simp [dumpItems] at same
  | item :: items, another :: others =>
      simp only [dumpItems, List.cons_append, List.append_assoc, List.cons.injEq, true_and] at same
      obtain ⟨rfl, after⟩ := dump_inj item another _ _ (stopped_dumpItems numerals _ _)
        (stopped_dumpItems numerals _ _) same
      obtain ⟨rfl, left⟩ := dumpItems_inj items others _ _ after
      exact ⟨rfl, left⟩

theorem dumpFields_inj (one other : List (List Char × Document Number)) (rest more : List Char)
    (same : dumpFields numerals one ++ '}' :: rest = dumpFields numerals other ++ '}' :: more) :
    one = other ∧ rest = more := by
  match one, other with
  | [], [] => exact ⟨rfl, (List.cons.inj same).2⟩
  | [], field :: fields => simp [dumpFields] at same
  | field :: fields, [] => simp [dumpFields] at same
  | (name, value) :: fields, (title, content) :: others =>
      simp only [dumpFields, List.cons_append, List.append_assoc, List.cons.injEq, true_and] at same
      obtain ⟨rfl, behind⟩ := separates_quoted _ _ _ _ same
      obtain ⟨rfl, after⟩ := dump_inj value content _ _ (stopped_dumpFields numerals _ _)
        (stopped_dumpFields numerals _ _) (List.cons.inj behind).2
      obtain ⟨rfl, left⟩ := dumpFields_inj fields others _ _ after
      exact ⟨rfl, left⟩

end

/-! ### Objects in order -/

mutual

/-- A document with the fields of each of its objects in the order of their names. -/
def Document.sorted : Document Number → Document Number
  | .null => .null
  | .boolean value => .boolean value
  | .number value => .number value
  | .text letters => .text letters
  | .array items => .array (sortedItems items)
  | .object fields => .object ((sortedFields fields).insertionSort fun one other => one.1 ≤ other.1)

def sortedItems : List (Document Number) → List (Document Number)
  | [] => []
  | item :: items => item.sorted :: sortedItems items

def sortedFields : List (List Char × Document Number) → List (List Char × Document Number)
  | [] => []
  | (name, value) :: fields => (name, value.sorted) :: sortedFields fields

end

/-- The text of a document with the fields of each of its objects in the order of their names. -/
def canonical (document : Document Number) : List Char := dump numerals document.sorted

/-- Documents of one canonical text differ in the order of fields at most. -/
theorem canonical_inj {one other : Document Number} (same : canonical numerals one = canonical numerals other) :
    one.sorted = other.sorted :=
  (dump_inj numerals _ _ [] [] Stopped.nil Stopped.nil (by rw [List.append_nil, List.append_nil]; exact same)).1

end GpuBroker.Library
