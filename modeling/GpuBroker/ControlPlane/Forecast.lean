/-
This file is the carbon forecast
(`src/controlplane/internal/domain/ecoshift/forecast.go`) and what of the past
and the future it can see.

A history of readings is collapsed to a series, one value for each half-hour
slot. Three models predict a slot from an anchor, and a backtest scores them on
the last two days: the seasonal forecast is trusted where it beat persistence.
Each model reads the series at shifted times, each of which it compares with
its anchor, and the anchors of the backtest end a horizon before the slot of
now. So whatever is read lies at or before that slot, and histories that agree
up to it give one forecast, one model and one verdict.
-/
import GpuBroker.ControlPlane.Exact

namespace GpuBroker.ControlPlane.EcoShift

open Number

variable {N : Type} [Number N]

/-! ### Series -/

/-- The interval of the carbon series. -/
def step : Duration := 30 * minute

def day : Duration := 24 * hour

def seasonalModel : String := "seasonal-7d@v1"

/-- The start of the slot of a time. -/
def truncate (t : Time) : Time := t - t % step

/-- Values by the start of their slot. -/
abbrev Series (N : Type) := Time → Option N

/-- Write a reading over what its slot held. -/
def Series.write (s : Series N) (r : Reading N) : Series N :=
  Function.update s (truncate r.time) (some r.gramsPerKWh)

/-- One value for each slot: the last reading of a slot stays. -/
def newSeries (rs : List (Reading N)) : Series N := rs.foldl Series.write fun _ => none

/-- The mean of the same half-hour on the previous seven days, of which at least three must be there. -/
def Series.seasonal (s : Series N) (t asOf : Time) : Option N :=
  let (sum, n) := [1, 2, 3, 4, 5, 6, 7].foldl (fun ((sum, n) : N × Int) (k : Int) =>
    if t - k * day > asOf then (sum, n)
    else
      match s (t - k * day) with
      | some v => (add sum v, n + 1)
      | none => (sum, n)) (ofInt 0, 0)
  if n < 3 then none else some (div sum (ofInt n))

/-- The last value after a limit, from a slot back. -/
def Series.lastAfter (s : Series N) (limit t : Time) : Option N :=
  if limit < t then
    match s t with
    | some v => some v
    | none => s.lastAfter limit (t - step)
  else none
termination_by (t - limit).toNat
decreasing_by
  have positive : 0 < step := by decide
  exact (Int.toNat_lt_toNat (sub_pos.mpr ‹limit < t›)).mpr (sub_lt_sub_right (sub_lt_self t positive) limit)

/-- Every slot is predicted as the last value of the six hours up to `asOf`. -/
def Series.persistence (s : Series N) (asOf : Time) : Option N := s.lastAfter (asOf - 6 * hour) (truncate asOf)

/-- The value a day earlier. -/
def Series.yesterday (s : Series N) (t asOf : Time) : Option N :=
  if t - day > asOf then none else s (t - day)

/-! ### Errors -/

/-- A forecast's error over a set of points. -/
structure Errors (N : Type) where
  n : Int
  mae : N
  mape : N
  p90AbsErr : N

def absolute (x : N) : N := if less x (ofInt 0) then sub (ofInt 0) x else x

/-- The mean of the errors, the mean of their percentages and their 90th percentile. -/
def errorsOf (pred actual : List N) : Errors N :=
  if pred.isEmpty then ⟨0, ofInt 0, ofInt 0, ofInt 0⟩
  else
    let abs := List.zipWith (fun p a => absolute (sub p a)) pred actual
    let sum := abs.foldl add (ofInt 0)
    let (sumPct, nPct) := (abs.zip actual).foldl (fun ((sumPct, nPct) : N × Int) (error, a) =>
      if less (ofInt 0) a then (add sumPct (div error a), nPct + 1) else (sumPct, nPct)) (ofInt 0, 0)
    let sorted := abs.mergeSort fun one two => !less two one
    { n := pred.length
      mae := div sum (ofInt pred.length)
      mape := if nPct > 0 then div (mul (ofInt 100) sumPct) (ofInt nPct) else ofInt 0
      -- `⌈0.9 * len⌉ - 1`
      p90AbsErr := sorted.getD ((9 * sorted.length + 9) / 10 - 1) (ofInt 0) }

/-! ### The backtest -/

/-- The times from one on, `every` apart, up to a last one. -/
def timesTo (every : Duration) (start last : Time) : List Time :=
  if 0 < every ∧ start ≤ last then start :: timesTo every (start + every) last else []
termination_by (last + 1 - start).toNat
decreasing_by
  have more : 0 < every ∧ start ≤ last := ‹0 < every ∧ start ≤ last›
  exact (Int.toNat_lt_toNat (sub_pos.mpr (Int.lt_add_one_of_le more.2))).mpr
    (sub_lt_sub_left (lt_add_of_pos_right start more.1) _)

/-- A slot that is scored: what it was and what each model predicted for it at an anchor. -/
structure Scored (N : Type) where
  anchor : Time
  target : Time
  actual : N
  persistence : N
  seasonal : N
  yesterday : N

/-- The slots of one anchor that all models predicted and whose value is there. -/
def Series.scoredAt (s : Series N) (horizon : Duration) (anchor : Time) : List (Scored N) :=
  (timesTo step (anchor + step) (anchor + horizon)).filterMap fun t =>
    match s t, s.persistence anchor, s.seasonal t anchor, s.yesterday t anchor with
    | some a, some p, some se, some y =>
        some { anchor := anchor, target := t, actual := a, persistence := p, seasonal := se, yesterday := y }
    | _, _, _, _ => none

/-- Everything that is scored; an anchor before `stop` is one up to the nanosecond before. -/
def Series.scored (s : Series N) (start stop : Time) (every horizon : Duration) : List (Scored N) :=
  (timesTo every start (stop - 1)).flatMap (s.scoredAt horizon)

/-- The errors of the three models. -/
structure Backtested (N : Type) where
  persistence : Errors N
  seasonal : Errors N
  sameTimeYesterday : Errors N

/-- `Backtest`: the three models on the same slots. -/
def Series.backtest (s : Series N) (start stop : Time) (every horizon : Duration) : Backtested N :=
  let scored := s.scored start stop every horizon
  let actual := scored.map Scored.actual
  { persistence := errorsOf (scored.map Scored.persistence) actual
    seasonal := errorsOf (scored.map Scored.seasonal) actual
    sameTimeYesterday := errorsOf (scored.map Scored.yesterday) actual }

/-! ### The forecast -/

/-- A predicted intensity with its band. -/
structure Point (N : Type) where
  time : Time
  gramsPerKWh : N
  low : N
  high : N

/-- The seasonal forecast, if on the last two days of the history it beat persistence. -/
def trustedForecast (hist : List (Reading N)) (now : Time) (horizon : Duration) : List (Point N) × String × Bool :=
  let s := newSeries hist
  let base := truncate now
  let bt := s.backtest (base - 48 * hour) (base - horizon) (6 * hour) horizon
  if bt.seasonal.n < 48 ∨ less bt.seasonal.mae bt.persistence.mae = false then ([], "", false)
  else
    let out := (timesTo step (base + step) (base + horizon)).filterMap fun t =>
      (s.seasonal t base).map fun v =>
        { time := t, gramsPerKWh := v, low := greatest (ofInt 0) (sub v bt.seasonal.p90AbsErr)
          high := add v bt.seasonal.p90AbsErr : Point N }
    (out, seasonalModel, out.length > 0)

/-! ### What the simulator lets the policy see -/

/-- The loop of `sort.Search`: the first index at which a condition that stays true is true. -/
def searchFrom (f : Nat → Bool) (i j : Nat) : Nat :=
  if i < j then
    if f ((i + j) / 2) = false then searchFrom f ((i + j) / 2 + 1) j
    else searchFrom f i ((i + j) / 2)
  else i
termination_by j - i

/-- The reading at an index is after now. -/
def isAfter (rs : List (Reading N)) (now : Time) (i : Nat) : Bool := rs[i]?.any fun r => r.time > now

/-- A region's reading at now and the forecast of its history up to now. -/
def regionAt (rs : List (Reading N)) (now : Time) : Option (RegionCarbon N) :=
  let k := searchFrom (isAfter rs now) 0 rs.length
  if k = 0 then none
  else
    let past := rs.take k
    let (fc, model, ok) := trustedForecast past now (24 * hour)
    some
      { current := past.getLast?
        forecast := if ok then fc.map fun point => { time := point.time, high := point.high } else []
        forecastModel := if ok then model else "" }

/-- `carbonAt`: every region's view of its history. -/
def carbonAt (history : String → List (Reading N)) (now : Time) (region : String) : Option (RegionCarbon N) :=
  regionAt (history region) now

/-! ### What is read -/

/-- Two series have one value at every slot up to a time. -/
def Agree (s s' : Series N) (limit : Time) : Prop := ∀ t ≤ limit, s t = s' t

omit [Number N] in
theorem Agree.earlier {s s' : Series N} {limit sooner : Time} (agree : Agree s s' limit) (before : sooner ≤ limit) :
    Agree s s' sooner := fun t early => agree t (early.trans before)

theorem step_pos : 0 < step := by decide

theorem truncate_le (t : Time) : truncate t ≤ t := by
  exact sub_le_self t (Int.emod_nonneg t step_pos.ne')

/-- The seasonal model reads no value after its anchor. -/
theorem seasonal_congr {s s' : Series N} {asOf : Time} (agree : Agree s s' asOf) (t : Time) :
    s.seasonal t asOf = s'.seasonal t asOf := by
  have turn : (fun ((sum, n) : N × Int) (k : Int) =>
      if t - k * day > asOf then (sum, n)
      else
        match s (t - k * day) with
        | some v => (add sum v, n + 1)
        | none => (sum, n)) = fun ((sum, n) : N × Int) (k : Int) =>
      if t - k * day > asOf then (sum, n)
      else
        match s' (t - k * day) with
        | some v => (add sum v, n + 1)
        | none => (sum, n) := by
    funext ⟨sum, n⟩ k
    dsimp only
    by_cases after : t - k * day > asOf
    · rw [if_pos after, if_pos after]
    · rw [if_neg after, if_neg after, agree _ (not_lt.mp after)]
  unfold Series.seasonal
  rw [turn]

omit [Number N] in
theorem lastAfter_congr {s s' : Series N} (limit : Time) {t : Time} (agree : Agree s s' t) :
    s.lastAfter limit t = s'.lastAfter limit t := by
  induction t using Series.lastAfter.induct s limit with
  | case1 t within v found =>
      rw [Series.lastAfter.eq_def s, Series.lastAfter.eq_def s', if_pos within, if_pos within, ← agree t le_rfl, found]
  | case2 t within missing inductionHypothesis =>
      have sooner : t - step ≤ t := sub_le_self t step_pos.le
      rw [Series.lastAfter.eq_def s, Series.lastAfter.eq_def s', if_pos within, if_pos within, ← agree t le_rfl, missing]
      exact inductionHypothesis (agree.earlier sooner)
  | case3 t done => rw [Series.lastAfter.eq_def s, Series.lastAfter.eq_def s', if_neg done, if_neg done]

omit [Number N] in
/-- Persistence reads no value after its anchor. -/
theorem persistence_congr {s s' : Series N} {asOf : Time} (agree : Agree s s' asOf) :
    s.persistence asOf = s'.persistence asOf :=
  lastAfter_congr _ (agree.earlier (truncate_le asOf))

omit [Number N] in
/-- Yesterday's value is not one after the anchor. -/
theorem yesterday_congr {s s' : Series N} {asOf : Time} (agree : Agree s s' asOf) (t : Time) :
    s.yesterday t asOf = s'.yesterday t asOf := by
  unfold Series.yesterday
  by_cases after : t - day > asOf
  · rw [if_pos after, if_pos after]
  · rw [if_neg after, if_neg after, agree _ (not_lt.mp after)]

theorem mem_timesTo {every : Duration} {start last t : Time} (member : t ∈ timesTo every start last) :
    start ≤ t ∧ t ≤ last := by
  induction start using timesTo.induct every last with
  | case1 start more inductionHypothesis =>
      rw [timesTo, if_pos more, List.mem_cons] at member
      rcases member with rfl | later
      · exact ⟨le_rfl, more.2⟩
      · obtain ⟨from_, until_⟩ := inductionHypothesis later
        exact ⟨(Int.le_add_of_nonneg_right more.1.le).trans from_, until_⟩
  | case2 start done =>
      rw [timesTo, if_neg done] at member
      exact absurd member List.not_mem_nil

/-- What is scored at an anchor lies after the anchor and within the horizon, and is what the series and its models say. -/
theorem mem_scoredAt {s : Series N} {horizon : Duration} {anchor : Time} {pair : Scored N}
    (member : pair ∈ s.scoredAt horizon anchor) :
    pair.anchor = anchor ∧ anchor + step ≤ pair.target ∧ pair.target ≤ anchor + horizon ∧
      s pair.target = some pair.actual ∧ s.persistence anchor = some pair.persistence ∧
      s.seasonal pair.target anchor = some pair.seasonal ∧ s.yesterday pair.target anchor = some pair.yesterday := by
  obtain ⟨t, listed, scored⟩ := List.mem_filterMap.mp member
  obtain ⟨after, within⟩ := mem_timesTo listed
  split at scored
  · next a p se y actual persisted seasoned past =>
      cases scored
      exact ⟨rfl, after, within, actual, persisted, seasoned, past⟩
  · exact nomatch scored

/-- Series that agree up to the horizon of an anchor are scored alike at it. -/
theorem scoredAt_congr {s s' : Series N} {horizon : Duration} {anchor limit : Time} (agree : Agree s s' limit)
    (within : anchor + horizon ≤ limit) : s.scoredAt horizon anchor = s'.scoredAt horizon anchor := by
  refine List.filterMap_congr fun t listed => ?_
  obtain ⟨after, until_⟩ := mem_timesTo listed
  have early : anchor ≤ limit :=
    ((le_add_of_nonneg_right step_pos.le).trans after).trans (until_.trans within)
  have known : Agree s s' anchor := agree.earlier early
  rw [agree t (until_.trans within), persistence_congr known, seasonal_congr known, yesterday_congr known]

/-- Series that agree up to a horizon after the last anchor are scored alike. -/
theorem scored_congr {s s' : Series N} {start stop limit : Time} {horizon : Duration} (every : Duration)
    (agree : Agree s s' limit) (within : stop + horizon ≤ limit) :
    s.scored start stop every horizon = s'.scored start stop every horizon := by
  refine List.flatMap_congr fun anchor listed => scoredAt_congr agree ?_
  have before : anchor ≤ stop := (mem_timesTo listed).2.trans (sub_le_self stop zero_le_one)
  exact (Int.add_le_add_right before horizon).trans within

/-! ### The readings up to a slot -/

/-- The reading's slot is not after the slot of now. -/
def upTo (now : Time) (r : Reading N) : Bool := truncate r.time ≤ truncate now

omit [Number N] in
/-- Readings of later slots leave the earlier slots of a series as they are. -/
theorem folded_upTo (now : Time) {slot : Time} (early : slot ≤ truncate now) (rs : List (Reading N))
    {out out' : Series N} (same : out slot = out' slot) :
    rs.foldl Series.write out slot = (rs.filter (upTo now)).foldl Series.write out' slot := by
  induction rs generalizing out out' with
  | nil => exact same
  | cons r rest inductionHypothesis =>
      by_cases known : upTo now r = true
      · rw [List.filter_cons_of_pos known]
        refine inductionHypothesis ?_
        by_cases own : slot = truncate r.time
        · rw [own, Series.write, Series.write, Function.update_self, Function.update_self]
        · rw [Series.write, Series.write, Function.update_of_ne own, Function.update_of_ne own, same]
      · rw [List.filter_cons_of_neg known]
        refine inductionHypothesis ?_
        have other : slot ≠ truncate r.time := fun own => known (decide_eq_true (own ▸ early))
        rw [Series.write, Function.update_of_ne other, same]

omit [Number N] in
/-- Histories with the same readings up to the slot of now have series that agree up to it. -/
theorem agree_newSeries {hist hist' : List (Reading N)} {now : Time}
    (same : hist.filter (upTo now) = hist'.filter (upTo now)) :
    Agree (newSeries hist) (newSeries hist') (truncate now) := by
  intro slot early
  rw [newSeries, newSeries, folded_upTo now early hist rfl, folded_upTo now early hist' rfl, same]

/-! ### No look ahead -/

/-- What the backtest of a forecast scores. -/
def backtested (hist : List (Reading N)) (now : Time) (horizon : Duration) : List (Scored N) :=
  (newSeries hist).scored (truncate now - 48 * hour) (truncate now - horizon) (6 * hour) horizon

/-- Histories with the same readings up to the slot of now are forecast alike. -/
theorem trustedForecast_congr {hist hist' : List (Reading N)} {now : Time} (horizon : Duration)
    (same : hist.filter (upTo now) = hist'.filter (upTo now)) :
    trustedForecast hist now horizon = trustedForecast hist' now horizon := by
  have agree := agree_newSeries same
  have scored : (newSeries hist).scored (truncate now - 48 * hour) (truncate now - horizon) (6 * hour) horizon =
      (newSeries hist').scored (truncate now - 48 * hour) (truncate now - horizon) (6 * hour) horizon :=
    scored_congr _ agree (sub_add_cancel (truncate now) horizon).le
  have tested : (newSeries hist).backtest (truncate now - 48 * hour) (truncate now - horizon) (6 * hour) horizon =
      (newSeries hist').backtest (truncate now - 48 * hour) (truncate now - horizon) (6 * hour) horizon := by
    rw [Series.backtest, Series.backtest, scored]
  have seasoned : ∀ t, (newSeries hist).seasonal t (truncate now) = (newSeries hist').seasonal t (truncate now) :=
    seasonal_congr agree
  rw [trustedForecast, trustedForecast, tested]
  simp only [seasoned]

/-- A search for a condition that stays true ends where it becomes true. -/
theorem searchFrom_spec {f : Nat → Bool} {stop : Nat} (stays : ∀ x y, x ≤ y → y < stop → f x = true → f y = true)
    (i j : Nat) (below : ∀ x < i, f x = false) (order : i ≤ j) (bound : j ≤ stop) :
    (∀ x < searchFrom f i j, f x = false) ∧ searchFrom f i j ≤ j ∧
      (searchFrom f i j < j → f (searchFrom f i j) = true) := by
  induction i, j using searchFrom.induct f with
  | case1 i j more unmet inductionHypothesis =>
      have low : ∀ x < (i + j) / 2 + 1, f x = false := by
        intro x early
        cases met : f x with
        | false => rfl
        | true =>
            have later := stays x ((i + j) / 2) (Nat.le_of_lt_succ early) (by omega) met
            exact absurd later (by simp [unmet])
      rw [searchFrom, if_pos more, if_pos unmet]
      exact inductionHypothesis low (by omega) bound
  | case2 i j more met inductionHypothesis =>
      obtain ⟨left, within, found⟩ := inductionHypothesis below (by omega) (by omega)
      rw [searchFrom, if_pos more, if_neg met]
      refine ⟨left, within.trans (by omega), fun _ => ?_⟩
      rcases within.lt_or_eq with before | same
      · exact found before
      · rw [same]
        simpa using met
  | case3 i j done =>
      have same : i = j := le_antisymm order (not_lt.mp done)
      rw [searchFrom, if_neg done]
      exact ⟨below, order, fun less => absurd less (same ▸ lt_irrefl i)⟩

omit [Number N] in
theorem isAfter_of_getElem? {rs : List (Reading N)} {now : Time} {i : Nat} {r : Reading N} (found : rs[i]? = some r) :
    isAfter rs now i = true ↔ now < r.time := by
  rw [isAfter, found, Option.any_some, decide_eq_true_iff]

omit [Number N] in
theorem isAfter_stays {rs : List (Reading N)} (sorted : rs.Pairwise fun one two => one.time ≤ two.time) (now : Time)
    (x y : Nat) (order : x ≤ y) (within : y < rs.length) (after : isAfter rs now x = true) : isAfter rs now y = true := by
  rcases order.lt_or_eq with before | rfl
  · have first : rs[x]? = some rs[x] := List.getElem?_eq_getElem (before.trans within)
    have second : rs[y]? = some rs[y] := List.getElem?_eq_getElem within
    rw [isAfter_of_getElem? first] at after
    rw [isAfter_of_getElem? second]
    exact lt_of_lt_of_le after (List.pairwise_iff_getElem.mp sorted x y _ within before)
  · exact after

omit [Number N] in
/-- Of a sorted history the search cuts off what is after now, and counts what is left. -/
theorem take_search {rs : List (Reading N)} (sorted : rs.Pairwise fun one two => one.time ≤ two.time) (now : Time) :
    rs.take (searchFrom (isAfter rs now) 0 rs.length) = rs.filter (fun r => r.time ≤ now) ∧
      searchFrom (isAfter rs now) 0 rs.length = (rs.filter fun r => r.time ≤ now).length := by
  obtain ⟨before, within, found⟩ :=
    searchFrom_spec (isAfter_stays sorted now) 0 rs.length (fun _ impossible => absurd impossible (Nat.not_lt_zero _))
      (Nat.zero_le _) le_rfl
  generalize searchFrom (isAfter rs now) 0 rs.length = k at before within found ⊢
  have past : ∀ r ∈ rs.take k, r.time ≤ now := by
    intro r member
    obtain ⟨i, here⟩ := List.getElem?_of_mem member
    have early : i < k := by
      have short := (List.getElem?_eq_some_iff.mp here).1
      rw [List.length_take] at short
      exact lt_of_lt_of_le short (Nat.min_le_left _ _)
    rw [List.getElem?_take_of_lt early] at here
    refine not_lt.mp fun after => ?_
    rw [← isAfter_of_getElem? here, before i early] at after
    exact absurd after (by decide)
  have future : ∀ r ∈ rs.drop k, ¬ r.time ≤ now := by
    intro r member
    obtain ⟨i, here⟩ := List.getElem?_of_mem member
    rw [List.getElem?_drop] at here
    have inside := (List.getElem?_eq_some_iff.mp here).1
    have after := isAfter_stays sorted now k (k + i) (Nat.le_add_right _ _) inside (found (by omega))
    rw [isAfter_of_getElem? here] at after
    exact not_le.mpr after
  have cut : rs.take k = rs.filter fun r => r.time ≤ now := by
    conv_rhs => rw [← List.take_append_drop k rs, List.filter_append]
    rw [List.filter_eq_self.mpr fun r member => decide_eq_true (past r member),
      List.filter_eq_nil_iff.mpr fun r member => by simpa using future r member, List.append_nil]
  exact ⟨cut, by rw [← cut, List.length_take, Nat.min_eq_left within]⟩

/-- Sorted histories with the same readings up to now are one history to the policy. -/
theorem regionAt_congr {rs rs' : List (Reading N)} (sorted : rs.Pairwise fun one two => one.time ≤ two.time)
    (sorted' : rs'.Pairwise fun one two => one.time ≤ two.time) {now : Time}
    (same : rs.filter (fun r => r.time ≤ now) = rs'.filter fun r => r.time ≤ now) :
    regionAt rs now = regionAt rs' now := by
  obtain ⟨cut, count⟩ := take_search sorted now
  obtain ⟨cut', count'⟩ := take_search sorted' now
  have taken : rs.take (searchFrom (isAfter rs now) 0 rs.length) =
      rs'.take (searchFrom (isAfter rs' now) 0 rs'.length) := by rw [cut, cut', same]
  have counted : searchFrom (isAfter rs now) 0 rs.length = searchFrom (isAfter rs' now) 0 rs'.length := by
    rw [count, count', same]
  rw [regionAt, regionAt, taken, counted]

/-- A forecast never looks ahead. Histories that agree up to the slot of now have one forecast, with one model and one
verdict; whatever the backtest scores lies at or before that slot, with what the models predicted for it; each model
predicts the same from series that agree up to its anchor; and the simulator shows the policy no reading after now. -/
theorem forecast_causal :
    (∀ (hist hist' : List (Reading N)) (now : Time) (horizon : Duration),
      hist.filter (upTo now) = hist'.filter (upTo now) →
        trustedForecast hist now horizon = trustedForecast hist' now horizon) ∧
    (∀ (hist : List (Reading N)) (now : Time) (horizon : Duration), ∀ pair ∈ backtested hist now horizon,
      pair.anchor < pair.target ∧ pair.target ≤ truncate now ∧ truncate now ≤ now ∧
        newSeries hist pair.target = some pair.actual ∧
        (newSeries hist).persistence pair.anchor = some pair.persistence ∧
        (newSeries hist).seasonal pair.target pair.anchor = some pair.seasonal ∧
        (newSeries hist).yesterday pair.target pair.anchor = some pair.yesterday) ∧
    (∀ (s s' : Series N) (anchor : Time), (∀ t ≤ anchor, s t = s' t) →
      s.persistence anchor = s'.persistence anchor ∧
        ∀ t, s.seasonal t anchor = s'.seasonal t anchor ∧ s.yesterday t anchor = s'.yesterday t anchor) ∧
    (∀ (history history' : String → List (Reading N)) (now : Time),
      (∀ region, (history region).Pairwise fun one two => one.time ≤ two.time) →
      (∀ region, (history' region).Pairwise fun one two => one.time ≤ two.time) →
      (∀ region, (history region).filter (fun r => r.time ≤ now) = (history' region).filter fun r => r.time ≤ now) →
        carbonAt history now = carbonAt history' now) := by
  refine ⟨?_, ?_, ?_, ?_⟩
  · exact fun hist hist' now horizon same => trustedForecast_congr horizon same
  · intro hist now horizon pair member
    obtain ⟨anchor, listed, scored⟩ := List.mem_flatMap.mp member
    obtain ⟨rfl, after, within, actual, persisted, seasoned, past⟩ := mem_scoredAt scored
    have last : pair.anchor ≤ truncate now - horizon - 1 := (mem_timesTo listed).2
    have known : pair.target ≤ truncate now := by
      have before : pair.anchor ≤ truncate now - horizon := last.trans (sub_le_self _ zero_le_one)
      exact within.trans (le_sub_iff_add_le.mp before)
    exact ⟨lt_of_lt_of_le (lt_add_of_pos_right _ step_pos) after, known, truncate_le now, actual, persisted, seasoned, past⟩
  · exact fun s s' anchor agree =>
      ⟨persistence_congr agree, fun t => ⟨seasonal_congr agree t, yesterday_congr agree t⟩⟩
  · intro history history' now sorted sorted' same
    funext region
    exact regionAt_congr (sorted region) (sorted' region) (same region)

/-- A reading of a hundred grams. -/
def Reading.steady (time : Time) : Reading ℚ := { time := time, gramsPerKWh := 100, source := "national" }

/-- A reading of the next slot changes neither the forecast nor what the simulator shows, and what the models say at an
anchor is the same without it. -/
theorem forecast_causal_next :
    trustedForecast [Reading.steady 0] (10 * minute) (24 * hour) =
        trustedForecast [Reading.steady 0, Reading.steady (30 * minute)] (10 * minute) (24 * hour) ∧
      carbonAt (fun _ => [Reading.steady 0]) (10 * minute) =
        carbonAt (fun _ => [Reading.steady 0, Reading.steady (30 * minute)]) (10 * minute) ∧
      (newSeries [Reading.steady 0]).persistence (10 * minute) =
        (newSeries [Reading.steady 0, Reading.steady (30 * minute)]).persistence (10 * minute) := by
  have agree : Agree (newSeries [Reading.steady 0]) (newSeries [Reading.steady 0, Reading.steady (30 * minute)])
      (10 * minute) := by
    intro t early
    have other : t ≠ truncate (Reading.steady (30 * minute)).time := by
      rintro rfl
      exact absurd early (by decide)
    exact (Function.update_of_ne other _ _).symm
  refine ⟨forecast_causal.1 _ _ _ _ rfl, ?_, (forecast_causal.2.2.1 _ _ _ agree).1⟩
  refine forecast_causal.2.2.2 _ _ _ (fun _ => ?_) (fun _ => ?_) fun _ => rfl
  · exact List.pairwise_singleton _ _
  · exact List.pairwise_pair.mpr (by decide)

end GpuBroker.ControlPlane.EcoShift
