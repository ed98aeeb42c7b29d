/-
This file is arithmetic in two machine words: the product of two 64-bit words,
addition with a carry, and the division of two words by one, which is undefined
where the quotient would not fit one word.

Each operation is said once, by the number that its two words make.
-/
import Mathlib.Algebra.Order.Ring.Nat
import Mathlib.Tactic.Ring

namespace GpuBroker.Library.Words

/-- The number two words make. -/
def wide (high low : UInt64) : Nat := high.toNat * 2 ^ 64 + low.toNat

/-- The product of two words, in two words. -/
def mul64 (x y : UInt64) : UInt64 × UInt64 := (.ofNat (x.toNat * y.toNat / 2 ^ 64), .ofNat (x.toNat * y.toNat))

/-- The sum of two words and a carry, and the carry out. -/
def add64 (x y carry : UInt64) : UInt64 × UInt64 :=
  (.ofNat (x.toNat + y.toNat + carry.toNat), .ofNat ((x.toNat + y.toNat + carry.toNat) / 2 ^ 64))

/-- The quotient and the remainder of two words by one, where the high word is below the divisor. -/
def div64 (high low divisor : UInt64) : Option (UInt64 × UInt64) :=
  if divisor ≤ high then none
  else some (.ofNat (wide high low / divisor.toNat), .ofNat (wide high low % divisor.toNat))

/-! ### The numbers the words make -/

theorem wide_div (high low : UInt64) : wide high low / 2 ^ 64 = high.toNat := by
  have small := low.toNat_lt
  unfold wide
  omega

/-- The square of the largest word leaves room for a carry into the high word. -/
theorem mul64_high (x y : UInt64) : (mul64 x y).1.toNat = x.toNat * y.toNat / 2 ^ 64 ∧
    x.toNat * y.toNat / 2 ^ 64 + 1 < 2 ^ 64 := by
  have left : x.toNat ≤ 2 ^ 64 - 1 := Nat.le_sub_one_of_lt x.toNat_lt
  have right : y.toNat ≤ 2 ^ 64 - 1 := Nat.le_sub_one_of_lt y.toNat_lt
  have product : x.toNat * y.toNat ≤ (2 ^ 64 - 1) * (2 ^ 64 - 1) := Nat.mul_le_mul left right
  have room : x.toNat * y.toNat / 2 ^ 64 + 1 < 2 ^ 64 := by omega
  refine ⟨?_, room⟩
  rw [mul64, UInt64.toNat_ofNat', Nat.mod_eq_of_lt (Nat.lt_of_succ_lt room)]

theorem wide_mul64 (x y : UInt64) : wide (mul64 x y).1 (mul64 x y).2 = x.toNat * y.toNat := by
  rw [wide, (mul64_high x y).1, mul64, UInt64.toNat_ofNat']
  exact Nat.div_add_mod' _ _

/-- A word added to the low word, with its carry into a high word that has room for it. -/
theorem wide_add64 {high low : UInt64} (term : UInt64) (room : high.toNat + 1 < 2 ^ 64) :
    wide (high + (add64 low term 0).2) (add64 low term 0).1 = wide high low + term.toNat := by
  have small := low.toNat_lt
  have little := term.toNat_lt
  have carried : (low.toNat + term.toNat) / 2 ^ 64 ≤ 1 := by omega
  have carry : (add64 low term 0).2.toNat = (low.toNat + term.toNat) / 2 ^ 64 := by
    rw [add64, UInt64.toNat_ofNat', UInt64.toNat_zero, Nat.add_zero, Nat.mod_eq_of_lt (by omega)]
  have rest : (add64 low term 0).1.toNat = (low.toNat + term.toNat) % 2 ^ 64 := by
    rw [add64, UInt64.toNat_ofNat', UInt64.toNat_zero, Nat.add_zero]
  rw [wide, UInt64.toNat_add, carry, rest, Nat.mod_eq_of_lt (by omega)]
  unfold wide
  omega

/-- Where the high word is below the divisor the quotient fits one word. -/
theorem div64_eq {high low divisor : UInt64} (below : high < divisor) :
    ∃ remainder, div64 high low divisor = some (.ofNat (wide high low / divisor.toNat), remainder) ∧
      wide high low / divisor.toNat < 2 ^ 64 := by
  have less : high.toNat < divisor.toNat := UInt64.lt_iff_toNat_lt.mp below
  have defined : ¬ divisor ≤ high := fun beyond => absurd (UInt64.le_iff_toNat_le.mp beyond) (Nat.not_le.mpr less)
  refine ⟨_, if_neg defined, Nat.div_lt_of_lt_mul ?_⟩
  have small := low.toNat_lt
  calc wide high low < high.toNat * 2 ^ 64 + 2 ^ 64 := Nat.add_lt_add_left small _
    _ = (high.toNat + 1) * 2 ^ 64 := by ring
    _ ≤ divisor.toNat * 2 ^ 64 := Nat.mul_le_mul_right _ less

end GpuBroker.Library.Words
