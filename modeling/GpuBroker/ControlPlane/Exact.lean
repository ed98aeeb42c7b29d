/-
This file is the order of the queue in exact arithmetic: the scores as rationals,
what rounding them to six decimals keeps, and the range of the usage shares.
-/
import GpuBroker.ControlPlane.Queues
import Mathlib.Algebra.Order.Field.Basic
import Mathlib.Tactic.Linarith
import Mathlib.Tactic.Ring

namespace GpuBroker.ControlPlane

open Library

/-! ### Rounding -/

theorem roundRat_mono {x y : ℚ} (below : x ≤ y) : roundRat x ≤ roundRat y := by
  have floor_nonneg : ∀ z : ℚ, 0 ≤ z → 0 ≤ z.floor := fun z nonneg =>
    Rat.le_floor_iff.mpr (by exact_mod_cast nonneg)
  unfold roundRat
  split
  · next nonneg =>
    rw [if_pos (nonneg.trans below)]
    exact Rat.floor_monotone (by linarith)
  · next negative =>
    have low := floor_nonneg (1 / 2 - x) (by linarith)
    split
    · have high := floor_nonneg (y + 1 / 2) (by linarith)
      omega
    · have floors := Rat.floor_monotone (show 1 / 2 - y ≤ 1 / 2 - x by linarith)
      omega

theorem roundRat_near (x : ℚ) : x - 1 / 2 ≤ roundRat x ∧ (roundRat x : ℚ) ≤ x + 1 / 2 := by
  unfold roundRat
  split
  · have low := Rat.floor_le (x + 1 / 2)
    have high := Rat.lt_floor_add_one (x + 1 / 2)
    push_cast at high
    exact ⟨by linarith, low⟩
  · have low := Rat.floor_le (1 / 2 - x)
    have high := Rat.lt_floor_add_one (1 / 2 - x)
    push_cast at high ⊢
    exact ⟨by linarith, by linarith⟩

/-- Six decimals tell apart what differs by a whole. -/
theorem round6_lt {x y : ℚ} (apart : x + 1 ≤ y) : (round6 x : ℚ) < round6 y := by
  show (roundRat (x * (1000000 : Int)) : ℚ) / (1000000 : Int) <
    (roundRat (y * (1000000 : Int)) : ℚ) / (1000000 : Int)
  have low := (roundRat_near (x * (1000000 : Int))).2
  have high := (roundRat_near (y * (1000000 : Int))).1
  refine div_lt_div_of_pos_right ?_ (by norm_num)
  push_cast at low high ⊢
  linarith

/-- Six decimals keep the order, though not strictly. -/
theorem round6_mono {x y : ℚ} (below : x ≤ y) : round6 x ≤ round6 y := by
  show (roundRat (x * (1000000 : Int)) : ℚ) / (1000000 : Int) ≤
    (roundRat (y * (1000000 : Int)) : ℚ) / (1000000 : Int)
  have scaled : x * (1000000 : Int) ≤ y * (1000000 : Int) :=
    mul_le_mul_of_nonneg_right below (by norm_num)
  exact div_le_div_of_nonneg_right (Int.cast_le.mpr (roundRat_mono scaled)) (by norm_num)

/-! ### Waits and shares -/

theorem least_eq (x y : ℚ) : least x y = min x y := by
  show (if decide (y < x) = true then y else x) = min x y
  by_cases less : y < x
  · rw [if_pos (decide_eq_true less), min_eq_right less.le]
  · rw [if_neg (by simpa using less), min_eq_left (not_lt.mp less)]

theorem hours_eq (span : Duration) : (hours span : ℚ) = span / hour := by
  have parts : ((span.tdiv hour * hour + span.tmod hour : Int) : ℚ) = (span : Int) := by
    rw [Int.tdiv_mul_add_tmod]
  have positive : (hour : ℚ) ≠ 0 := by
    show ((3600000000000 : Int) : ℚ) ≠ 0
    norm_num
  show (span.tdiv hour : ℚ) + (span.tmod hour : ℚ) / hour = span / hour
  rw [eq_div_iff positive, add_mul, div_mul_cancel₀ _ positive]
  exact_mod_cast parts

/-- No tenant's usage is negative. -/
def Used (usage : List (TenantID × ℚ)) : Prop := ∀ entry ∈ usage, 0 ≤ entry.2

theorem usage_total (usage : List (TenantID × ℚ)) (start : ℚ) :
    usage.foldl (fun sum entry => Number.add sum entry.2) start =
      start + (usage.map Prod.snd).sum := by
  induction usage generalizing start with
  | nil => simp
  | cons entry rest inductionHypothesis =>
      rw [List.foldl_cons, inductionHypothesis, List.map_cons, List.sum_cons]
      exact add_assoc _ _ _

theorem usageShares_eq (usage : List (TenantID × ℚ)) (tenant : TenantID) :
    usageShares usage tenant =
      if 0 < (usage.map Prod.snd).sum then
        ((usage.lookup tenant).map fun used => used / (usage.map Prod.snd).sum).getD 0
      else 0 := by
  have total : usage.foldl (fun sum entry => Number.add sum entry.2) (Number.ofInt 0) =
      (usage.map Prod.snd).sum := by
    rw [usage_total]
    exact (congrArg (· + _) Int.cast_zero).trans (zero_add _)
  have positive_iff : Number.less (Number.ofInt 0 : ℚ) (usage.map Prod.snd).sum = true ↔
      0 < (usage.map Prod.snd).sum := by
    rw [← Int.cast_zero (R := ℚ)]
    exact decide_eq_true_iff
  unfold usageShares
  simp only [total, positive_iff]
  exact congrArg (fun zero => if 0 < (usage.map Prod.snd).sum then
    ((usage.lookup tenant).map fun used => used / (usage.map Prod.snd).sum).getD zero else zero)
      Int.cast_zero

theorem mem_of_lookup {usage : List (TenantID × ℚ)} {tenant : TenantID} {used : ℚ}
    (found : usage.lookup tenant = some used) : (tenant, used) ∈ usage := by
  induction usage with
  | nil => cases found
  | cons entry rest inductionHypothesis =>
      obtain ⟨name, amount⟩ := entry
      rw [List.lookup_cons] at found
      cases same : tenant == name with
      | true =>
          rw [same] at found
          cases found
          rw [beq_iff_eq.mp same]
          exact List.mem_cons_self
      | false =>
          rw [same] at found
          exact List.mem_cons_of_mem _ (inductionHypothesis found)

/-- A share is a part of the whole. -/
theorem usageShares_bounds {usage : List (TenantID × ℚ)} (used : Used usage) (tenant : TenantID) :
    0 ≤ usageShares usage tenant ∧ usageShares usage tenant ≤ 1 := by
  rw [usageShares_eq]
  split
  · next positive =>
    cases found : usage.lookup tenant with
    | none => exact ⟨le_refl 0, zero_le_one⟩
    | some amount =>
        have member := mem_of_lookup found
        have within : amount ≤ (usage.map Prod.snd).sum :=
          List.single_le_sum (fun _ isAmount => by
            obtain ⟨entry, isEntry, rfl⟩ := List.mem_map.mp isAmount
            exact used entry isEntry) amount (List.mem_map_of_mem member)
        exact ⟨div_nonneg (used _ member) positive.le, (div_le_one positive).mpr within⟩
  · exact ⟨le_refl 0, zero_le_one⟩

/-- The part of the age limit that a wait fills. -/
def ageTerm (wait ageMax : Duration) : ℚ := min 1 (wait / ageMax)

theorem fairShareScore_eq (fair : FairShare ℚ) (share : ℚ) (wait : Duration) :
    fairShareScore fair share wait =
      fair.wFair * (1 - share) + fair.wAge * ageTerm wait fair.ageMax := by
  have positive : (hour : ℚ) ≠ 0 := by
    show ((3600000000000 : Int) : ℚ) ≠ 0
    norm_num
  show fair.wFair * (((1 : Int) : ℚ) - share) + fair.wAge * least ((1 : Int) : ℚ)
    (hours wait / hours fair.ageMax) = _
  rw [least_eq, hours_eq, hours_eq, div_div_div_cancel_right₀ positive, Int.cast_one]
  rfl

theorem ageTerm_bounds {wait ageMax : Duration} (waited : 0 ≤ wait) (limit : 0 < ageMax) :
    0 ≤ ageTerm wait ageMax ∧ ageTerm wait ageMax ≤ 1 := by
  refine ⟨le_min zero_le_one (div_nonneg ?_ ?_), min_le_left _ _⟩
  · exact_mod_cast waited
  · exact_mod_cast limit.le

/-! ### Who is ahead -/

variable {snapshot : Snapshot ℚ} {policy : Policy ℚ} {one two : Job}

/-- The score of a job in a snapshot. -/
def Snapshot.scoreOf (snapshot : Snapshot ℚ) (policy : Policy ℚ) (job : Job) : ℚ :=
  (snapshot.keyed policy job).key.score

theorem sooner_iff : snapshot.sooner policy one two = true ↔
    snapshot.scoreOf policy two < snapshot.scoreOf policy one ∨
      snapshot.scoreOf policy one = snapshot.scoreOf policy two ∧ older one two = true := by
  show (if decide (snapshot.scoreOf policy one = snapshot.scoreOf policy two) = true then older one two
    else decide (snapshot.scoreOf policy two < snapshot.scoreOf policy one)) = true ↔ _
  by_cases level : snapshot.scoreOf policy one = snapshot.scoreOf policy two
  · rw [if_pos (decide_eq_true level), level]
    simp
  · rw [if_neg (by simpa using level), decide_eq_true_eq]
    simp [level]

/-- One job comes before another one in the queue exactly when it is ahead. -/
theorem queue_before_iff (isOne : one ∈ snapshot.jobs) (isTwo : two ∈ snapshot.jobs)
    (apart : one.id ≠ two.id) :
    [one, two].Sublist (queue snapshot policy) ↔ snapshot.sooner policy one two = true := by
  have sorted := queue_sorted comparable_rat snapshot policy
  constructor
  · intro sublist
    have behind := List.pairwise_pair.mp (sorted.sublist sublist)
    by_contra level
    exact apart (comparable_rat.apart behind level)
  · intro sooner
    obtain ⟨before, after, split⟩ := List.append_of_mem
      (mem_queue.mpr isTwo : two ∈ queue snapshot policy)
    have member := (mem_queue.mpr isOne : one ∈ queue snapshot policy)
    rw [split, List.pairwise_append] at sorted
    rw [split] at member ⊢
    rcases List.mem_append.mp member with early | late
    · exact (List.singleton_sublist.mpr early).append (List.singleton_sublist.mpr List.mem_cons_self)
    · rcases List.mem_cons.mp late with rfl | late
      · exact absurd rfl apart
      · exact absurd sooner (List.rel_of_pairwise_cons sorted.2.1 late)

end GpuBroker.ControlPlane
