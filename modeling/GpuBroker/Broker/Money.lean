/-
This file is money as the Python broker counts it: amounts of any precision,
which are compared and multiplied, and amounts rounded to the currency's
quantum, which are all the ledger ever holds.

An amount in the ledger is a whole number of hundredths by its type, so that
rounding it again changes nothing. Time is counted in microseconds, the width of
a stored timestamp. How many hours a duration is, and which billing period a
moment falls in, come from floating-point division and from the time-zone
database; the calendar keeps what the broker relies on of both.
-/
import Mathlib.Algebra.Order.Floor.Ring
import Mathlib.Algebra.Order.Round
import Mathlib.Data.Int.ConditionallyCompleteOrder
import Mathlib.Data.Rat.Floor
import Mathlib.Tactic.Linarith

namespace GpuBroker.Broker

/-- A moment, in microseconds. -/
abbrev Time := Int

/-- A length of time, in microseconds. -/
abbrev Duration := Int

/-- What a unit of capacity is denominated in. -/
inductive Currency where
  | usd
  | gpuHour
  deriving DecidableEq

/-- Every currency. -/
def Currency.all : List Currency := [.usd, .gpuHour]

/-- An amount of any precision. -/
abbrev Decimal := ℚ

/-- A rounded amount, counted in the quantum of its currency: cents, or hundredths of a
GPU-hour. -/
abbrev Cents := Int

/-- The smallest unit worth tracking, the same for both currencies. -/
def quantum : Decimal := 1 / 100

/-- The amount a count of quanta is. -/
def money (amount : Cents) : Decimal := amount * quantum

/-- Round to the smallest unit, a half away from zero. -/
def quantize (value : Decimal) : Cents :=
  if 0 ≤ value then ⌊value / quantum + 1 / 2⌋ else -⌊-value / quantum + 1 / 2⌋

theorem money_le_money {amount other : Cents} : money amount ≤ money other ↔ amount ≤ other := by
  unfold money quantum
  constructor
  · intro below
    exact_mod_cast (by linarith : (amount : ℚ) ≤ other)
  · intro below
    have cast : (amount : ℚ) ≤ other := by exact_mod_cast below
    linarith

@[simp] theorem money_zero : money 0 = 0 := by
  simp [money]

theorem money_add (amount other : Cents) : money (amount + other) = money amount + money other := by
  unfold money
  push_cast
  ring

theorem money_nonneg {amount : Cents} : 0 ≤ money amount ↔ 0 ≤ amount := by
  rw [← money_zero, money_le_money]

/-- Rounding keeps the order. -/
theorem quantize_mono : Monotone quantize := by
  intro value other below
  have wide : (0 : ℚ) < quantum := by norm_num [quantum]
  unfold quantize
  split <;> split
  · exact Int.floor_mono (by gcongr)
  · next nonneg negative => exact absurd (le_trans nonneg below) negative
  · next negative nonneg =>
    rw [not_le] at negative
    have low : 0 ≤ ⌊-value / quantum + 1 / 2⌋ :=
      Int.floor_nonneg.mpr (add_nonneg (div_nonneg (by linarith) wide.le) (by norm_num))
    have high : 0 ≤ ⌊other / quantum + 1 / 2⌋ :=
      Int.floor_nonneg.mpr (add_nonneg (div_nonneg nonneg wide.le) (by norm_num))
    linarith
  · exact neg_le_neg (Int.floor_mono (by gcongr))

/-- Rounding a rounded amount changes nothing. -/
@[simp] theorem quantize_money (amount : Cents) : quantize (money amount) = amount := by
  have half : ∀ count : Int, ⌊(count : ℚ) + 1 / 2⌋ = count := fun count => by
    rw [Int.floor_intCast_add]
    norm_num
  have scaled : money amount / quantum = amount := by
    unfold money
    rw [mul_div_assoc, div_self (by norm_num [quantum]), mul_one]
  unfold quantize
  split
  · rw [scaled, half]
  · have negated : -money amount / quantum = ((-amount : Int) : ℚ) := by
      rw [neg_div, scaled]
      push_cast
      rfl
    rw [negated, half, neg_neg]

@[simp] theorem quantize_zero : quantize 0 = 0 := by
  rw [← money_zero, quantize_money]

theorem quantize_nonneg {value : Decimal} (nonneg : 0 ≤ value) : 0 ≤ quantize value :=
  quantize_zero ▸ quantize_mono nonneg

/-- What a billing period is counted in: months. -/
abbrev Period := Int

/-- How the broker reads the clock: the hours of a duration, and the billing period of a moment in
the club's time zone. -/
structure Calendar where
  hours : Duration → Decimal
  period : Time → Period
  hours_mono : Monotone hours
  hours_zero : ∀ duration ≤ 0, hours duration = 0
  period_mono : Monotone period

theorem Calendar.hours_nonneg (calendar : Calendar) (duration : Duration) :
    0 ≤ calendar.hours duration := by
  rcases le_total duration 0 with before | after
  · rw [calendar.hours_zero duration before]
  · rw [← calendar.hours_zero 0 le_rfl]
    exact calendar.hours_mono after

end GpuBroker.Broker
