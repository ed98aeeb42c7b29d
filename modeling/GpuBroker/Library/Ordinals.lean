/-
This file is ordinals and how they are written.

The position of a row in a sorted list is the number of rows that come before
it, so rows that come after a row leave its position as it was. A position is
written in the bijective numerals: a number goes on with one less than its
quotient, so that no digit is a zero and every word of digits is the numeral of
one number. What a numeral is worth is one more than the number it was made of,
in every base.
-/
import Mathlib.Logic.Function.Basic

namespace GpuBroker.Library

/-! ### Positions -/

section Positions

variable {α : Type} {before : α → α → Bool}

/-- A row of a sorted list stands at the number of rows that come before it. -/
theorem countP_position (asymmetric : ∀ one other, before one other = true → before other one = false) :
    ∀ {rows : List α} {position : Nat} {row : α}, rows.Pairwise (fun one other => before one other = true) →
      rows[position]? = some row → rows.countP (fun other => before other row) = position
  | [], _, _, _, found => absurd found (by simp)
  | head :: rest, 0, row, sorted, found => by
      have same : head = row := by simpa using found
      subst same
      have own : before head head = false := by
        cases said : before head head with
        | false => rfl
        | true => exact absurd said (by simp [asymmetric head head said])
      refine List.countP_eq_zero.mpr fun other member => ?_
      rcases List.mem_cons.mp member with rfl | later
      · simp [own]
      · simp [asymmetric head other (List.rel_of_pairwise_cons sorted later)]
  | head :: rest, position + 1, row, sorted, found => by
      have later : rest[position]? = some row := by simpa using found
      have first : before head row = true :=
        List.rel_of_pairwise_cons sorted (List.mem_of_getElem? later)
      rw [List.countP_cons, countP_position asymmetric sorted.of_cons later, if_pos first]

/-- Rows that do not come before a row leave the number of those that do as it was. -/
theorem countP_joined {rows joined all : List α} {row : α} (grown : all.Perm (rows ++ joined))
    (after : ∀ new ∈ joined, before new row = false) :
    all.countP (fun other => before other row) = rows.countP fun other => before other row := by
  have none_ : joined.countP (fun other => before other row) = 0 :=
    List.countP_eq_zero.mpr fun new member => by simp [after new member]
  rw [grown.countP_eq, List.countP_append, none_, Nat.add_zero]

end Positions

/-! ### Bijective numerals -/

/-- The digits of a number, each below the base. -/
def numeral (base number : Nat) : List Nat :=
  if number / base = 0 then [number % base]
  else numeral base (number / base - 1) ++ [number % base]
termination_by number
decreasing_by
  have small := Nat.div_le_self number base
  generalize number / base = quotient at *
  omega

/-- What a word of digits is worth, where the least digit is worth one. -/
def worth (base : Nat) (digits : List Nat) : Nat :=
  digits.foldl (fun sum digit => sum * base + (digit + 1)) 0

theorem worth_append (base : Nat) (digits : List Nat) (digit : Nat) :
    worth base (digits ++ [digit]) = worth base digits * base + (digit + 1) := by
  rw [worth, List.foldl_append, List.foldl_cons, List.foldl_nil]
  rfl

/-- A numeral is worth one more than its number. -/
theorem worth_numeral (base number : Nat) : worth base (numeral base number) = number + 1 := by
  induction number using numeral.induct base with
  | case1 number short =>
      rw [numeral, if_pos short, worth, List.foldl_cons, List.foldl_nil, Nat.zero_mul, Nat.zero_add]
      have whole := Nat.div_add_mod number base
      rw [short, Nat.mul_zero, Nat.zero_add] at whole
      rw [whole]
  | case2 number long inductionHypothesis =>
      rw [numeral, if_neg long, worth_append, inductionHypothesis]
      have positive : number / base - 1 + 1 = number / base := Nat.succ_pred_eq_of_ne_zero long
      have whole := Nat.div_add_mod number base
      rw [positive, Nat.mul_comm, ← Nat.add_assoc, whole]

/-- No two numbers have one numeral. -/
theorem numeral_injective (base : Nat) : Function.Injective (numeral base) := by
  intro one other same
  have worths := congrArg (worth base) same
  rw [worth_numeral, worth_numeral] at worths
  exact Nat.succ.inj worths

theorem numeral_digits {base : Nat} (positive : 0 < base) (number : Nat) :
    ∀ digit ∈ numeral base number, digit < base := by
  induction number using numeral.induct base with
  | case1 number short =>
      rw [numeral, if_pos short]
      intro digit member
      rw [List.mem_singleton.mp member]
      exact Nat.mod_lt _ positive
  | case2 number long inductionHypothesis =>
      rw [numeral, if_neg long]
      intro digit member
      rcases List.mem_append.mp member with earlier | last
      · exact inductionHypothesis digit earlier
      · rw [List.mem_singleton.mp last]
        exact Nat.mod_lt _ positive

end GpuBroker.Library
