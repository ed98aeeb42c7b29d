/-
This file is the charge as the machine computes it
(`src/controlplane/internal/domain/budget.go`, `CostOf`).

The product of rate, GPUs and span is taken in two 64-bit words, the unit less
one is added with its carry, and the two words are divided by the unit of an
hour in one word. The number the two words make is the product plus the unit
less one, so the quotient is the exact charge rounded up, and the division is
reached only where its quotient fits one word: the test before it is that the
high word is below the divisor. Where the test fails the exact charge is above
the largest amount as well, so both ways of saturating are the minimum.
-/
import GpuBroker.Library.Words
import GpuBroker.ControlPlane.Admissions
import Mathlib.Data.Rat.Floor
import Mathlib.Algebra.Order.Field.Basic

namespace GpuBroker.ControlPlane

open Library Library.Words

/-! ### Two words -/

/-- The unit of the rounded division, as a word. -/
def hourWord : UInt64 := .ofInt hour

/-- The numerator of the charge, with the addend that rounds up: its high and its low word. -/
def chargeWords (rate : MicroUSD) (gpus : Int) (d : Duration) : UInt64 × UInt64 :=
  let (hi, lo) := mul64 (.ofInt rate * .ofInt gpus) (.ofInt d)
  let (lo, carry) := add64 lo (hourWord - 1) 0
  (hi + carry, lo)

/-- `CostOf` in words, none where the division of two words by one would be undefined. -/
def costOfInWords (rate : MicroUSD) (gpus : Int) (d : Duration) : Option MicroUSD :=
  if d ≤ 0 ∨ gpus ≤ 0 ∨ rate ≤ 0 then some 0
  else
    let (hi, lo) := chargeWords rate gpus d
    if hi ≥ hourWord then some maxInt64
    else
      match div64 hi lo hourWord with
      | none => none
      | some (q, _) => if q > .ofInt maxInt64 then some maxInt64 else some (q.toNat : Int)

theorem hourWord_toNat : hourWord.toNat = hour.toNat := by decide

theorem ofInt_toNat {value : Int} (nonneg : 0 ≤ value) : (UInt64.ofInt value).toNat = value.toNat % 2 ^ 64 := by
  obtain ⟨number, rfl⟩ := Int.eq_ofNat_of_zero_le nonneg
  rw [UInt64.ofInt, UInt64.toNat_ofNat', Int.toNat_natCast]
  omega

/-- The two words make the product of what was wrapped to a word, plus the addend. -/
theorem wide_chargeWords {rate : MicroUSD} {gpus : Int} {d : Duration} (paid : 0 ≤ rate) (some_ : 0 ≤ gpus)
    (long : 0 ≤ d) (short : d ≤ maxInt64) :
    wide (chargeWords rate gpus d).1 (chargeWords rate gpus d).2 =
      rate.toNat * gpus.toNat % 2 ^ 64 * d.toNat + (hour.toNat - 1) := by
  have room := mul64_high (.ofInt rate * .ofInt gpus) (.ofInt d)
  have addend : (hourWord - 1).toNat = hour.toNat - 1 := by decide
  have span : d.toNat < 2 ^ 64 := by
    have bound : maxInt64.toNat < 2 ^ 64 := by decide
    exact lt_of_le_of_lt (Int.toNat_le_toNat short) bound
  rw [chargeWords, wide_add64 _ (room.1 ▸ room.2), wide_mul64, addend, UInt64.toNat_mul, ofInt_toNat paid,
    ofInt_toNat some_, ofInt_toNat long, Nat.mod_eq_of_lt span, ← Nat.mul_mod]

/-- A quotient of one word is compared with the largest amount as the number it is. -/
theorem saturated_word {quotient : Nat} (fits : quotient < 2 ^ 64) :
    (if UInt64.ofNat quotient > .ofInt maxInt64 then some maxInt64
      else some ((UInt64.ofNat quotient).toNat : Int)) =
      some (if (quotient : Int) > maxInt64 then maxInt64 else (quotient : Int)) := by
  have read : (UInt64.ofNat quotient).toNat = quotient := UInt64.toNat_ofNat_of_lt' fits
  have limit : (UInt64.ofInt maxInt64).toNat = maxInt64.toNat := by decide
  have order : UInt64.ofNat quotient > .ofInt maxInt64 ↔ (quotient : Int) > maxInt64 := by
    rw [gt_iff_lt, UInt64.lt_iff_toNat_lt, read, limit]
    exact Int.toNat_lt (by decide)
  rw [read]
  by_cases large : (quotient : Int) > maxInt64
  · rw [if_pos large, if_pos (order.mpr large)]
  · rw [if_neg large, if_neg fun beyond => large (order.mp beyond)]

/-- The division is never undefined, and the charge in words is the charge. -/
theorem costOfInWords_eq (rate : MicroUSD) (gpus : Int) {d : Duration} (short : d ≤ maxInt64) :
    costOfInWords rate gpus d = some (costOf rate gpus d) := by
  unfold costOfInWords costOf
  by_cases free : d ≤ 0 ∨ gpus ≤ 0 ∨ rate ≤ 0
  · rw [if_pos free, if_pos free]
  · rw [if_neg free, if_neg free]
    simp only [not_or, not_le] at free
    obtain ⟨long, some_, paid⟩ := free
    have number := wide_chargeWords paid.le some_.le long.le short
    generalize chargeWords rate gpus d = words at number ⊢
    obtain ⟨hi, lo⟩ := words
    have high := wide_div hi lo
    simp only at number ⊢
    rw [number] at high
    by_cases beyond : hi ≥ hourWord
    · have above := UInt64.le_iff_toNat_le.mp beyond
      rw [hourWord_toNat] at above
      rw [if_pos beyond, high, if_pos above]
    · have below : hi < hourWord := UInt64.not_le.mp beyond
      have less := Nat.not_le.mpr (UInt64.lt_iff_toNat_lt.mp below)
      rw [hourWord_toNat] at less
      obtain ⟨remainder, divided, fits⟩ := @div64_eq hi lo hourWord below
      rw [hourWord_toNat, number] at divided fits
      rw [if_neg beyond, high, if_neg less, divided]
      rw [← Int.natCast_ediv]
      generalize (rate.toNat * gpus.toNat % 2 ^ 64 * d.toNat + (hour.toNat - 1)) / hour.toNat = quotient at fits ⊢
      exact saturated_word fits

/-! ### The exact charge -/

/-- A numerator less one more than a multiple of the unit, divided: the quotient rounded up. -/
theorem ceil_div (amount unit : Nat) (positive : 0 < unit) :
    (((amount + (unit - 1)) / unit : Nat) : Int) = ⌈(amount : ℚ) / unit⌉ := by
  have unit_ : (0 : ℚ) < unit := Nat.cast_pos.mpr positive
  have above : amount ≤ (amount + (unit - 1)) / unit * unit := by
    have rounded := @Nat.lt_div_mul_add (amount + (unit - 1)) unit positive
    omega
  have below : (amount + (unit - 1)) / unit * unit < amount + unit := by
    have cut := Nat.div_mul_le_self (amount + (unit - 1)) unit
    omega
  generalize (amount + (unit - 1)) / unit = quotient at above below
  refine (Int.ceil_eq_iff.mpr ⟨?_, ?_⟩).symm
  · rw [lt_div_iff₀ unit_, Int.cast_natCast, sub_mul, one_mul, sub_lt_iff_lt_add]
    exact_mod_cast below
  · rw [div_le_iff₀ unit_, Int.cast_natCast]
    exact_mod_cast above

/-- Where the high word is not below the unit the quotient is above the limit, so both tests saturate. -/
theorem saturated_eq_min {limit : Int} {total unit : Nat} (positive : 0 < unit) (little : limit < 2 ^ 64) :
    (if total / 2 ^ 64 ≥ unit then limit
      else if (total / unit : Int) > limit then limit else (total / unit : Int)) =
      min ((total / unit : Nat) : Int) limit := by
  rw [← Int.natCast_ediv]
  by_cases beyond : total / 2 ^ 64 ≥ unit
  · have large : 2 ^ 64 ≤ total / unit := by
      rw [Nat.le_div_iff_mul_le positive, Nat.mul_comm]
      exact (Nat.le_div_iff_mul_le (by decide)).mp beyond
    rw [if_pos beyond, min_eq_right (by omega)]
  · rw [if_neg beyond]
    by_cases large : ((total / unit : Nat) : Int) > limit
    · rw [if_pos large, min_eq_right large.le]
    · rw [if_neg large, min_eq_left (not_lt.mp large)]

/-- The charge is the exact charge rounded up, or the largest amount if that is less. -/
theorem costOf_eq_min {rate : MicroUSD} {gpus : Int} {d : Duration} (paid : 0 < rate) (some_ : 0 < gpus)
    (long : 0 < d) (fits : rate * gpus < 2 ^ 64) :
    costOf rate gpus d = min ⌈(rate * gpus * d : ℚ) / hour⌉ maxInt64 := by
  obtain ⟨price, rfl⟩ := Int.eq_ofNat_of_zero_le paid.le
  obtain ⟨count, rfl⟩ := Int.eq_ofNat_of_zero_le some_.le
  obtain ⟨span, rfl⟩ := Int.eq_ofNat_of_zero_le long.le
  have charged := not_or.mpr ⟨not_le.mpr long, not_or.mpr ⟨not_le.mpr some_, not_le.mpr paid⟩⟩
  have small : price * count < 2 ^ 64 := by exact_mod_cast fits
  have exact_ : ⌈((price : Int) * (count : Int) * (span : Int) : ℚ) / hour⌉ =
      ((price * count * span + (hour.toNat - 1)) / hour.toNat : Nat) := by
    rw [ceil_div _ _ (by decide)]
    push_cast
    rfl
  rw [exact_, costOf, if_neg charged]
  simp only [Int.toNat_natCast, Nat.mod_eq_of_lt small]
  exact saturated_eq_min (by decide) (by decide)

/-! ### Monotonicity -/

/-- More of each of the three costs no less, as long as rate and GPUs fit a word. -/
theorem costOf_mono_all {rate rate' : MicroUSD} {gpus gpus' : Int} {d d' : Duration} (dearer : rate ≤ rate')
    (more : gpus ≤ gpus') (longer : d ≤ d') (fits : rate' * gpus' < 2 ^ 64) :
    costOf rate gpus d ≤ costOf rate' gpus' d' := by
  by_cases free : d ≤ 0 ∨ gpus ≤ 0 ∨ rate ≤ 0
  · rw [costOf, if_pos free]
    exact costOf_nonneg _ _ _
  · simp only [not_or, not_le] at free
    obtain ⟨long, some_, paid⟩ := free
    have products : rate * gpus ≤ rate' * gpus' := mul_le_mul dearer more some_.le (paid.le.trans dearer)
    rw [costOf_eq_min paid some_ long (lt_of_le_of_lt products fits),
      costOf_eq_min (paid.trans_le dearer) (some_.trans_le more) (long.trans_le longer) fits]
    refine min_le_min_right _ (Int.ceil_le_ceil ?_)
    have unit : (0 : ℚ) ≤ hour := by exact_mod_cast (by decide : (0 : Int) ≤ hour)
    refine div_le_div_of_nonneg_right ?_ unit
    exact_mod_cast mul_le_mul products longer long.le ((mul_pos paid some_).le.trans products)

/-- What an attempt is settled for, before the cap, is no more than its hold while it ran no longer than the job may. -/
theorem runCost_le_hold (service : Service) (job : Job) (attempt : Attempt) (reservation : Reservation) (now : Time)
    (held : reservation.holdAmount = costOf reservation.priceRate reservation.gpus job.maxRuntime)
    (part : ∀ acked, attempt.ackedAt = some acked → now - acked ≤ job.maxRuntime) :
    service.runCost job attempt reservation now ≤ reservation.holdAmount := by
  rw [held]
  unfold Service.runCost
  cases ran : attempt.ackedAt with
  | none => exact costOf_nonneg _ _ _
  | some acked => exact costOf_mono _ _ ((min_le_left _ _).trans (part acked ran))

/-! ### The charge is exact -/

/-- The charge of positive operands is the exact charge rounded up and cut off at the largest amount, and the division
of two words by one is never undefined; the charge is monotone, and no part of a run costs more than the whole. -/
theorem costOf_exact :
    (∀ (rate : MicroUSD) (gpus : Int) (d : Duration), 0 < rate → 0 < gpus → 0 < d → d ≤ maxInt64 →
      rate * gpus < 2 ^ 64 →
        costOfInWords rate gpus d = some (min ⌈(rate * gpus * d : ℚ) / hour⌉ maxInt64)) ∧
    (∀ (rate : MicroUSD) (gpus : Int) (d : Duration), d ≤ maxInt64 →
      costOfInWords rate gpus d = some (costOf rate gpus d)) ∧
    (∀ (rate rate' : MicroUSD) (gpus gpus' : Int) (d d' : Duration), rate ≤ rate' → gpus ≤ gpus' → d ≤ d' →
      rate' * gpus' < 2 ^ 64 → costOf rate gpus d ≤ costOf rate' gpus' d') ∧
    (∀ (rate : MicroUSD) (gpus : Int) (part whole : Duration), part ≤ whole →
      costOf rate gpus part ≤ costOf rate gpus whole) ∧
    (∀ (service : Service) (job : Job) (attempt : Attempt) (reservation : Reservation) (now : Time),
      reservation.holdAmount = costOf reservation.priceRate reservation.gpus job.maxRuntime →
      (∀ acked, attempt.ackedAt = some acked → now - acked ≤ job.maxRuntime) →
        service.runCost job attempt reservation now ≤ reservation.holdAmount) := by
  refine ⟨?_, ?_, ?_, ?_, runCost_le_hold⟩
  · intro rate gpus d paid some_ long short fits
    rw [costOfInWords_eq rate gpus short, costOf_eq_min paid some_ long fits]
  · exact fun rate gpus d short => costOfInWords_eq rate gpus short
  · exact fun rate rate' gpus gpus' d d' dearer more longer fits => costOf_mono_all dearer more longer fits
  · exact fun rate gpus part whole shorter => costOf_mono rate gpus shorter

/-- Half an hour on three GPUs at seven dollars is exact; the largest rate on two GPUs saturates and fits; and
half an hour costs no more than an hour, at the same rate and at a higher one. -/
theorem costOf_exact_half_hour :
    costOfInWords 7000000 3 (hour / 2) = some 10500000 ∧
      costOfInWords maxInt64 2 hour = some maxInt64 ∧
      costOf 7000000 3 (hour / 2) ≤ costOf 7000000 3 hour ∧
      costOf 7000000 3 (hour / 2) ≤ costOf 8000000 4 hour := by
  have exact_ := costOf_exact.1 7000000 3 (hour / 2) (by decide) (by decide) (by decide) (by decide) (by decide)
  have saturated := costOf_exact.1 maxInt64 2 hour (by decide) (by decide) (by decide) (by decide) (by decide)
  have parts := costOf_exact.2.2.2.1 7000000 3 (hour / 2) hour (by decide)
  have more := costOf_exact.2.2.1 7000000 8000000 3 4 (hour / 2) hour (by decide) (by decide) (by decide) (by decide)
  have amount : min ⌈(((7000000 : Int) : ℚ) * ((3 : Int) : ℚ) * ((hour / 2 : Int) : ℚ)) / hour⌉ maxInt64 = 10500000 := by
    decide +kernel
  have largest : min ⌈((maxInt64 : ℚ) * ((2 : Int) : ℚ) * (hour : ℚ)) / hour⌉ maxInt64 = maxInt64 := by
    decide +kernel
  exact ⟨exact_.trans (congrArg some amount), saturated.trans (congrArg some largest), parts, more⟩

end GpuBroker.ControlPlane
