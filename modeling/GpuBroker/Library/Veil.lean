/-
This file is programs under a veil: a map of states that hides a part of them.

A program that is blind to what a veil hides runs under the veil as it runs
without. A loop, some of whose turns are blind to what is hidden and the others
of which change nothing but that, is under the veil a run of the turns of the
first kind alone, each of which starts after what time the others took. A loop
that raises leaves the turns it has not made.
-/
import GpuBroker.Library.Program

namespace GpuBroker.Library

namespace Program

variable {State Label Error Result Other Item : Type}

/-! ### Blind programs -/

/-- What a program comes to in a state under a veil, and what it leaves: as without, veiled. -/
structure Veiled (veil : State → State) (keeps : State → Prop) (raises : Error → Prop)
    (program : Program State Label Error Result) (post : Result → Prop) (state : State) : Prop where
  same : program.whole (veil state) = ((program.whole state).1, veil (program.whole state).2)
  kept : keeps (program.whole state).2
  result : ∀ result, (program.whole state).1 = .ok result → post result
  error : ∀ error, (program.whole state).1 = .error error → raises error

/-- A program runs under a veil as it runs without, wherever it starts. -/
def Blind (veil : State → State) (keeps : State → Prop) (raises : Error → Prop)
    (program : Program State Label Error Result) (post : Result → Prop) : Prop :=
  ∀ state, keeps state → Veiled veil keeps raises program post state

variable {veil : State → State} {keeps : State → Prop} {raises : Error → Prop} {post : Result → Prop}

theorem blind_done {result : Result} (holds : post result) :
    Blind veil keeps raises (done result : Program State Label Error Result) post := by
  refine fun state kept => ⟨rfl, kept, fun other same => ?_, nofun⟩
  cases same
  exact holds

theorem blind_fail {error : Error} (raised : raises error) :
    Blind veil keeps raises (fail error : Program State Label Error Result) post := by
  refine fun state kept => ⟨rfl, kept, nofun, fun other same => ?_⟩
  cases same
  exact raised

theorem Blind.bind {first : Program State Label Error Other}
    {rest : Other → Program State Label Error Result} {middle : Other → Prop}
    (begins : Blind veil keeps raises first middle)
    (resumes : ∀ value, middle value → Blind veil keeps raises (rest value) post) :
    Blind veil keeps raises (first >>= rest) post := by
  intro state kept
  have begun := begins state kept
  cases came : (first.whole state).1 with
  | ok value =>
      have rested := resumes value (begun.result value came) _ begun.kept
      have open_ : first.whole state = (.ok value, (first.whole state).2) := Prod.ext came rfl
      have under : first.whole (veil state) = (.ok value, veil (first.whole state).2) := by
        rw [begun.same, came]
      refine ⟨?_, ?_, ?_, ?_⟩
      · rw [whole_bind_ok open_, whole_bind_ok under]
        exact rested.same
      · rw [whole_bind_ok open_]
        exact rested.kept
      · rw [whole_bind_ok open_]
        exact rested.result
      · rw [whole_bind_ok open_]
        exact rested.error
  | error error =>
      have open_ : (first >>= rest).whole state = (.error error, (first.whole state).2) := by
        rw [whole_bind, show first.whole state = (.error error, (first.whole state).2) from Prod.ext came rfl]
      have under : (first >>= rest).whole (veil state) = (.error error, veil (first.whole state).2) := by
        rw [whole_bind, begun.same, came]
      refine ⟨?_, ?_, ?_, fun other raised => ?_⟩
      · rw [under, open_]
      · rw [open_]
        exact begun.kept
      · rw [open_]
        exact nofun
      · rw [open_] at raised
        cases raised
        exact begun.error error came

/-- One access that answers under the veil as without, and changes there what it changes without. -/
theorem blind_access {label : Option Label} {action : State → Other × State}
    {next : Other → Program State Label Error Result}
    (same : ∀ state, keeps state → action (veil state) = ((action state).1, veil (action state).2))
    (kept : ∀ state, keeps state → keeps (action state).2)
    (resumes : ∀ value, Blind veil keeps raises (next value) post) :
    Blind veil keeps raises (access label action next) post := by
  intro state here
  have rested := resumes (action state).1 _ (kept state here)
  refine ⟨?_, rested.kept, rested.result, rested.error⟩
  show (next (action (veil state)).1).whole (action (veil state)).2 = _
  rw [same state here]
  exact rested.same

/-! ### Loops under a veil -/

/-- A program for each item of a list, one after another, each after some wait. -/
inductive Paced (waits : State → State → Prop) (body : Item → Program State Label Error Result) :
    List Item → State → State → Prop
  | concluded {start last : State} : waits start last → Paced waits body [] start last
  | next {item : Item} {items : List Item} {start ready after last : State} {result : Result} :
      waits start ready → (body item).whole ready = (.ok result, after) →
        Paced waits body items after last → Paced waits body (item :: items) start last

variable {waits : State → State → Prop} {body : Item → Program State Label Error Result}
  {items : List Item} {start ready last : State}

theorem Paced.wait (trans : ∀ {one two three}, waits one two → waits two three → waits one three)
    (waited : waits start ready) (paced : Paced waits body items ready last) :
    Paced waits body items start last := by
  cases paced with
  | concluded concluded => exact .concluded (trans waited concluded)
  | next later came rest => exact .next (trans waited later) came rest

theorem Paced.append {more : List Item} (first : Paced waits body items start ready)
    (second : Paced waits body more ready last)
    (trans : ∀ {one two three}, waits one two → waits two three → waits one three) :
    Paced waits body (items ++ more) start last := by
  induction first with
  | concluded concluded => exact second.wait trans concluded
  | next ready came _ inductionHypothesis => exact .next ready came (inductionHypothesis second)

/-- What never falls does not fall along paced programs. -/
theorem Paced.le {level : State → Nat} (still : ∀ start last, waits start last → level start ≤ level last)
    (each : ∀ item ∈ items, ∀ state, level state ≤ level ((body item).whole state).2)
    (paced : Paced waits body items start last) : level start ≤ level last := by
  induction paced with
  | concluded waited => exact still _ _ waited
  | @next first rest start ready after last result waited came _ inductionHypothesis =>
      have turn := each _ List.mem_cons_self ready
      rw [came] at turn
      exact le_trans (still _ _ waited) (le_trans turn
        (inductionHypothesis fun other member => each other (List.mem_cons_of_mem _ member)))

variable (waits) in
/-- A loop whose turns thread an accumulator that they do not look at. -/
theorem paced_of_foldlM {add : Other → Item → Result → Other} (shown : Item → Bool)
    (trans : ∀ {one two three}, waits one two → waits two three → waits one three)
    (refl : ∀ state, waits state state)
    (blind : ∀ item ∈ items, shown item = true → Blind veil keeps raises (body item) fun _ => True)
    (hidden : ∀ item ∈ items, shown item = false → ∀ state, keeps state →
      keeps ((body item).whole state).2 ∧ waits (veil state) (veil ((body item).whole state).2))
    {other final : Other} {state last : State} (kept : keeps state)
    (ended : (items.foldlM (fun other item => body item >>= fun result => pure (add other item result))
      other : Program State Label Error Other).whole state = (.ok final, last)) :
    keeps last ∧ Paced waits body (items.filter shown) (veil state) (veil last) := by
  induction items generalizing other state with
  | nil =>
      cases ended
      exact ⟨kept, .concluded (refl _)⟩
  | cons item items inductionHypothesis =>
      rw [List.foldlM_cons, bind_assoc] at ended
      obtain ⟨result, middle, came, rest⟩ := whole_bind_eq_ok ended
      rw [pure_bind] at rest
      have turn : ((body item).whole state).2 = middle := congrArg Prod.snd came
      have later := @inductionHypothesis
        (fun other member => blind other (List.mem_cons_of_mem _ member))
        (fun other member => hidden other (List.mem_cons_of_mem _ member))
      cases seen : shown item with
      | true =>
          have veiled := blind item List.mem_cons_self seen state kept
          have here : keeps middle := turn ▸ veiled.kept
          obtain ⟨keptLast, paced⟩ := later here rest
          refine ⟨keptLast, ?_⟩
          rw [List.filter_cons_of_pos seen]
          have under : (body item).whole (veil state) = (.ok result, veil middle) := by
            rw [veiled.same, came]
          exact .next (refl _) under paced
      | false =>
          obtain ⟨keptHere, waited⟩ := hidden item List.mem_cons_self seen state kept
          rw [turn] at keptHere waited
          obtain ⟨keptLast, paced⟩ := later keptHere rest
          refine ⟨keptLast, ?_⟩
          rw [List.filter_cons_of_neg (by rw [seen]; exact Bool.false_ne_true)]
          exact paced.wait trans waited

/-! ### Loops that raise -/

/-- The items that a loop leaves when a turn of it raises, the one it raises at included. -/
def stalled (turn : Result → Item → Program State Label Error Result) :
    List Item → Result → State → List Item
  | [], _, _ => []
  | item :: items, result, state =>
      match (turn result item).whole state with
      | (.ok next, later) => stalled turn items next later
      | (.error _, _) => item :: items

/-- Where a loop stalls: the items before, the one it raises at and those behind it, and what it had come
to there. -/
structure Stalls (turn : Result → Item → Program State Label Error Result) (items : List Item)
    (result : Result) (state : State) (error : Error) (final : State) (done : List Item) (item : Item)
    (rest : List Item) (reached : Result) (there : State) : Prop where
  split : items = done ++ item :: rest
  left : stalled turn items result state = item :: rest
  ran : (done.foldlM turn result).whole state = (.ok reached, there)
  raised : (turn reached item).whole there = (.error error, final)

end Program

end GpuBroker.Library
