/-
This file is the bookkeeping of the simulator over whole runs.

Where a job is and what its worker has reserved is said of a state with its
queue and what runs given apart, so that the loops of a tick, which take both
apart, can be followed one step at a time. The books are sound when the jobs in
the queue, running, completed and expired are those that arrived, each once,
when each worker has reserved what runs on it and no more than it has, and when
whoever may come back to the queue has another attempt. What a decision of the
policy promises is what its step needs: a placement passed the filter, victims
have an attempt left, and the placements that are still to come fit beside what
is reserved.
-/
import GpuBroker.ControlPlane.Simulator
import GpuBroker.ControlPlane.Listings
import GpuBroker.ControlPlane.Delays

namespace GpuBroker.ControlPlane.Sim

open Library

variable {N : Type} {sc : Scenario N}

/-! ### The fleet -/

/-- The names of workers read back: the digits after the last letter are the number. -/
theorem twoDigits_value (i : Nat) : Nat.ofDigitChars 10 (twoDigits i) 0 = i := by
  have zeros : ∀ count (rest : List Char),
      Nat.ofDigitChars 10 (List.replicate count '0' ++ rest) 0 = Nat.ofDigitChars 10 rest 0 := by
    intro count rest
    induction count with
    | zero => rfl
    | succ count inductionHypothesis =>
        rw [List.replicate_succ, List.cons_append, Nat.ofDigitChars_cons]
        exact inductionHypothesis
  rw [twoDigits, zeros, Nat.ofDigitChars_ten_toDigits]

theorem twoDigits_digits {i : Nat} {char : Char} (member : char ∈ twoDigits i) : char.isDigit = true := by
  rcases List.mem_append.mp member with zero | digit
  · rw [List.eq_of_mem_replicate zero]
    rfl
  · exact Nat.isDigit_of_mem_toDigits (by decide) (by decide) digit

/-- The digits at the end of a worker's name are its number. -/
theorem workerName_digits (pool : PoolID) (i : Nat) :
    ((workerName pool i).toList.reverse.takeWhile Char.isDigit).reverse = twoDigits i := by
  have digits : ∀ char ∈ (twoDigits i).reverse, char.isDigit = true :=
    fun char member => twoDigits_digits (List.mem_reverse.mp member)
  rw [workerName, String.toList_ofList, List.reverse_append, List.reverse_cons, List.reverse_cons, List.append_assoc,
    List.append_assoc, List.takeWhile_append_of_pos digits]
  show ((twoDigits i).reverse ++ []).reverse = twoDigits i
  rw [List.append_nil, List.reverse_reverse]

theorem workerName_inj {pool pool' : PoolID} {i i' : Nat} (same : workerName pool i = workerName pool' i') :
    pool = pool' ∧ i = i' := by
  have digits := workerName_digits pool i
  rw [same, workerName_digits] at digits
  have chars := String.ofList_injective same
  rw [digits] at chars
  refine ⟨String.toList_injective (List.append_cancel_right chars), ?_⟩
  rw [← twoDigits_value i, ← digits, twoDigits_value]

theorem fleet_names (ps : PoolSpec N) :
    ps.fleet.map Worker.id = (List.range ps.workers.length).map (workerName ps.id) := by
  have indices : ps.workers.zipIdx.map Prod.snd = List.range ps.workers.length := by
    rw [List.zipIdx_map_snd, List.range_eq_range']
  rw [← indices, PoolSpec.fleet, List.map_map, List.map_map]
  rfl

/-- No two workers of the fleet have one name. -/
theorem fleet_distinct (sc : Scenario N) : (sc.fleet.map Worker.id).Nodup := by
  rw [Scenario.fleet, List.map_flatMap, List.nodup_flatMap]
  refine ⟨fun ps _ => ?_, ?_⟩
  · rw [fleet_names]
    exact List.nodup_range.map fun _ _ same => (workerName_inj same).2
  · refine (List.pairwise_map.mp sc.poolsDistinct).imp fun {one two} differs => ?_
    intro id isOne isTwo
    have isOne : id ∈ one.fleet.map Worker.id := isOne
    have isTwo : id ∈ two.fleet.map Worker.id := isTwo
    rw [fleet_names] at isOne isTwo
    obtain ⟨i, -, rfl⟩ := List.mem_map.mp isOne
    obtain ⟨i', -, same⟩ := List.mem_map.mp isTwo
    exact differs (workerName_inj same).1.symm

/-- The GPUs of the jobs that run on a worker. -/
def load (id : WorkerID) (run : List (Running N)) : Int :=
  ((run.filter fun r => r.worker = id).map fun r => r.job.requirements.gpus).sum

theorem load_cons (id : WorkerID) (r : Running N) (run : List (Running N)) :
    load id (r :: run) = (if r.worker = id then r.job.requirements.gpus else 0) + load id run := by
  unfold load
  by_cases own : r.worker = id
  · rw [List.filter_cons, if_pos (decide_eq_true own), List.map_cons, List.sum_cons, if_pos own]
  · rw [List.filter_cons, if_neg (by simpa using own), if_neg own, zero_add]

theorem load_perm (id : WorkerID) {run run' : List (Running N)} (reordered : run.Perm run') :
    load id run = load id run' := ((reordered.filter _).map _).sum_eq

/-- Each worker of the fleet has reserved what runs on it, which leaves what is spared free. -/
structure Fleet (sc : Scenario N) (spare : WorkerID → Int) (run : List (Running N)) (workers : List Worker) : Prop where
  fleet : workers.map Worker.idle = sc.fleet
  reserved : ∀ w ∈ workers, w.gpusReserved = load w.id run
  within : ∀ w ∈ workers, w.gpusReserved + spare w.id ≤ w.capability.gpus

namespace Fleet

variable {spare spare' : WorkerID → Int} {run run' : List (Running N)} {workers : List Worker}

theorem distinct (fleet : Fleet sc spare run workers) : (workers.map Worker.id).Nodup := by
  have ids : workers.map Worker.id = (workers.map Worker.idle).map Worker.id := by
    rw [List.map_map]
    rfl
  rw [ids, fleet.fleet]
  exact fleet_distinct sc

/-- A worker after a reservation is one before it, with what was reserved of it. -/
theorem mem_reserve {id : WorkerID} {gpus : Int} {w : Worker} (member : w ∈ reserve id gpus workers) :
    ∃ before ∈ workers, w.id = before.id ∧ w.capability = before.capability ∧
      w.gpusReserved = before.gpusReserved + if before.id = id then gpus else 0 := by
  obtain ⟨before, listed, rfl⟩ := List.mem_map.mp member
  refine ⟨before, listed, ?_⟩
  by_cases own : before.id = id
  · rw [if_pos own, if_pos own]
    exact ⟨rfl, rfl, rfl⟩
  · rw [if_neg own, if_neg own, add_zero]
    exact ⟨rfl, rfl, rfl⟩

theorem reserve_idle (id : WorkerID) (gpus : Int) : (reserve id gpus workers).map Worker.idle = workers.map Worker.idle := by
  rw [reserve, List.map_map]
  refine List.map_congr_left fun w _ => ?_
  show Worker.idle (if w.id = id then _ else w) = w.idle
  split <;> rfl

theorem perm (fleet : Fleet sc spare run workers) (reordered : run.Perm run') : Fleet sc spare run' workers where
  fleet := fleet.fleet
  reserved w member := (fleet.reserved w member).trans (load_perm _ reordered)
  within := fleet.within

/-- A job that stops gives back what it had. -/
theorem leave {r : Running N} (fleet : Fleet sc spare (r :: run) workers) (natural : 0 ≤ r.job.requirements.gpus) :
    Fleet sc spare run (reserve r.worker (-r.job.requirements.gpus) workers) where
  fleet := (reserve_idle _ _).trans fleet.fleet
  reserved w member := by
    obtain ⟨before, listed, id, -, reserved⟩ := mem_reserve member
    rw [reserved, id, fleet.reserved before listed, load_cons]
    by_cases own : before.id = r.worker
    · rw [if_pos own, if_pos own.symm]
      ring
    · rw [if_neg own, if_neg (Ne.symm own)]
      ring
  within w member := by
    obtain ⟨before, listed, id, capability, reserved⟩ := mem_reserve member
    have within := fleet.within before listed
    rw [reserved, id, capability]
    split <;> linarith

/-- A job that starts takes its GPUs out of what was spared. -/
theorem join {r : Running N} (fleet : Fleet sc spare run workers)
    (spared : ∀ id, spare id = (if r.worker = id then r.job.requirements.gpus else 0) + spare' id) :
    Fleet sc spare' (run ++ [r]) (reserve r.worker r.job.requirements.gpus workers) where
  fleet := (reserve_idle _ _).trans fleet.fleet
  reserved w member := by
    obtain ⟨before, listed, id, -, reserved⟩ := mem_reserve member
    rw [reserved, id, fleet.reserved before listed, load_perm _ (List.perm_append_singleton r run), load_cons]
    by_cases own : before.id = r.worker
    · rw [if_pos own, if_pos own.symm]
      ring
    · rw [if_neg own, if_neg (Ne.symm own)]
      ring
  within w member := by
    obtain ⟨before, listed, id, capability, reserved⟩ := mem_reserve member
    have within := fleet.within before listed
    rw [spared] at within
    rw [reserved, id, capability]
    by_cases own : before.id = r.worker
    · rw [if_pos own.symm] at within
      rw [if_pos own]
      linarith
    · rw [if_neg (Ne.symm own)] at within
      rw [if_neg own]
      linarith

end Fleet

/-! ### Sound books -/

/-- The books with a queue and what runs given apart from the state. -/
structure Sound (sc : Scenario N) (arrived : List JobSpec) (spare : WorkerID → Int) (queue : List Job)
    (run : List (Running N)) (s : State N) : Prop where
  ids : (queue.map Job.id ++ (run.map (fun r => r.job.id) ++ (s.completed.map Job.id ++ s.expired.map Job.id))).Perm
    (arrived.map JobSpec.id)
  none_lost : s.lost = []
  waiting : ∀ j ∈ queue, j.attempt < j.maxAttempts ∧ 0 ≤ j.requirements.gpus
  running : ∀ r ∈ run, 0 ≤ r.job.requirements.gpus ∧
    (r.pool.interruptible = true → r.job.attempt < r.job.maxAttempts)
  fleet : Fleet sc spare run s.workers

namespace Sound

variable {arrived : List JobSpec} {spare spare' : WorkerID → Int} {queue queue' : List Job}
  {run run' : List (Running N)} {s s' : State N}

/-- What else a state remembers does not matter. -/
theorem of_same (sound : Sound sc arrived spare queue run s) (completed : s'.completed = s.completed)
    (expired : s'.expired = s.expired) (lost : s'.lost = s.lost) (workers : s'.workers = s.workers) :
    Sound sc arrived spare queue run s' := by
  obtain ⟨ids, none_lost, waiting, running, fleet⟩ := sound
  exact ⟨by rw [completed, expired]; exact ids, lost.trans none_lost, waiting, running, workers ▸ fleet⟩

theorem perm (sound : Sound sc arrived spare queue run s) (queues : queue.Perm queue') (runs : run.Perm run') :
    Sound sc arrived spare queue' run' s where
  ids := (((queues.symm.map _).append ((runs.symm.map _).append_right _))).trans sound.ids
  none_lost := sound.none_lost
  waiting j member := sound.waiting j (queues.mem_iff.mpr member)
  running r member := sound.running r (runs.mem_iff.mpr member)
  fleet := sound.fleet.perm runs

/-- A job that runs completes. -/
theorem finish {r : Running N} (sound : Sound sc arrived spare queue (r :: run) s) :
    Sound sc arrived spare queue run
      { s with
        completed := s.completed ++ [r.job]
        workers := reserve r.worker (-r.job.requirements.gpus) s.workers } where
  ids := by
    refine List.perm_iff_count.mpr fun id => ?_
    have count := sound.ids.count_eq id
    simp only [List.map_append, List.map_cons, List.map_nil, List.count_append, List.count_cons, List.count_nil] at count ⊢
    omega
  none_lost := sound.none_lost
  waiting := sound.waiting
  running other member := sound.running other (List.mem_cons_of_mem r member)
  fleet := sound.fleet.leave (sound.running r List.mem_cons_self).1

/-- A job that runs goes back to the queue, with another attempt left. -/
theorem requeue {r : Running N} (sound : Sound sc arrived spare queue (r :: run) s)
    (left : r.job.attempt < r.job.maxAttempts) :
    Sound sc arrived spare (queue ++ [r.requeued]) run
      { s with workers := reserve r.worker (-r.job.requirements.gpus) s.workers } where
  ids := by
    have own : r.requeued.id = r.job.id := rfl
    refine List.perm_iff_count.mpr fun id => ?_
    have count := sound.ids.count_eq id
    simp only [List.map_append, List.map_cons, List.map_nil, List.count_append, List.count_cons, List.count_nil, own]
      at count ⊢
    omega
  none_lost := sound.none_lost
  waiting j member := by
    rcases List.mem_append.mp member with before | back
    · exact sound.waiting j before
    · rw [List.mem_singleton.mp back]
      exact ⟨left, (sound.running r List.mem_cons_self).1⟩
  running other member := sound.running other (List.mem_cons_of_mem r member)
  fleet := sound.fleet.leave (sound.running r List.mem_cons_self).1

/-- A job arrives, for which some attempts are left. -/
theorem arrive {a : JobSpec} {j : Job} (sound : Sound sc arrived spare queue run s) (own : j.id = a.id)
    (fresh : j.attempt < j.maxAttempts) (natural : 0 ≤ j.requirements.gpus) :
    Sound sc (arrived ++ [a]) spare (queue ++ [j]) run s where
  ids := by
    refine List.perm_iff_count.mpr fun id => ?_
    have count := sound.ids.count_eq id
    simp only [List.map_append, List.map_cons, List.map_nil, List.count_append, List.count_cons, List.count_nil, own]
      at count ⊢
    omega
  none_lost := sound.none_lost
  waiting other member := by
    rcases List.mem_append.mp member with before | new
    · exact sound.waiting other before
    · rw [List.mem_singleton.mp new]
      exact ⟨fresh, natural⟩
  running := sound.running
  fleet := sound.fleet

/-- A job of the queue expires. -/
theorem expire {j : Job} (sound : Sound sc arrived spare (j :: queue) run s) :
    Sound sc arrived spare queue run { s with expired := s.expired ++ [j] } where
  ids := by
    refine List.perm_iff_count.mpr fun id => ?_
    have count := sound.ids.count_eq id
    simp only [List.map_append, List.map_cons, List.map_nil, List.count_append, List.count_cons, List.count_nil] at count ⊢
    omega
  none_lost := sound.none_lost
  waiting other member := sound.waiting other (List.mem_cons_of_mem j member)
  running := sound.running
  fleet := sound.fleet

/-- A job of the queue starts on a worker that was spared for it. -/
theorem start {j : Job} {r : Running N} (sound : Sound sc arrived spare (j :: queue) run s) (own : r.job.id = j.id)
    (asked : r.job.requirements = j.requirements)
    (retriable : r.pool.interruptible = true → r.job.attempt < r.job.maxAttempts)
    (spared : ∀ id, spare id = (if r.worker = id then r.job.requirements.gpus else 0) + spare' id) :
    Sound sc arrived spare' queue (run ++ [r])
      { s with workers := reserve r.worker r.job.requirements.gpus s.workers } where
  ids := by
    refine List.perm_iff_count.mpr fun id => ?_
    have count := sound.ids.count_eq id
    simp only [List.map_append, List.map_cons, List.map_nil, List.count_append, List.count_cons, List.count_nil, own]
      at count ⊢
    omega
  none_lost := sound.none_lost
  waiting other member := sound.waiting other (List.mem_cons_of_mem j member)
  running other member := by
    rcases List.mem_append.mp member with before | new
    · exact sound.running other before
    · rw [List.mem_singleton.mp new]
      exact ⟨asked ▸ (sound.waiting j List.mem_cons_self).2, retriable⟩
  fleet := sound.fleet.join spared

/-- What is spared for nobody may be forgotten. -/
theorem spare_eq (sound : Sound sc arrived spare queue run s) (same : ∀ id, spare' id = spare id) :
    Sound sc arrived spare' queue run s := by
  rw [show spare' = spare from funext same]
  exact sound

/-- A queue whose jobs differ from those before in nothing but what they wait for. -/
theorem rewrite (sound : Sound sc arrived spare queue run s) {change : Job → Job}
    (keeps : ∀ j, (change j).id = j.id ∧ (change j).attempt = j.attempt ∧ (change j).maxAttempts = j.maxAttempts ∧
      (change j).requirements = j.requirements) :
    Sound sc arrived spare (queue.map change) run s where
  ids := by
    rw [List.map_map, show Job.id ∘ change = Job.id from funext fun j => (keeps j).1]
    exact sound.ids
  none_lost := sound.none_lost
  waiting j member := by
    obtain ⟨before, listed, rfl⟩ := List.mem_map.mp member
    obtain ⟨-, attempt, limit, asked⟩ := keeps before
    rw [attempt, limit, asked]
    exact sound.waiting before listed
  running := sound.running
  fleet := sound.fleet

/-- No job is anywhere twice. -/
theorem distinct (sound : Sound sc arrived spare queue run s) (apart : (arrived.map JobSpec.id).Nodup) :
    (queue.map Job.id ++ run.map fun r => r.job.id).Nodup := by
  have all := sound.ids.nodup_iff.mpr apart
  rw [← List.append_assoc] at all
  exact (List.nodup_append.mp all).1

end Sound

/-! ### Completions, interruptions and arrivals -/

section

variable [Number N] {arrived : List JobSpec} {spare : WorkerID → Int} {now : Time}

/-- A victim runs and may be preempted. -/
theorem decideJob_victim {snap : Snapshot N} {policy : Policy N} {digest : String} {held : Held} {left : Left}
    {ordered : OrderedJob N} (preempts : (decideJob snap policy digest held left ordered).1.action = .preempt) :
    ∃ running ∈ snap.running, running.preemptible = true ∧
      running.job = (decideJob snap policy digest held left ordered).1.victim := by
  have picked_runs : ∀ {running : RunningJob} {worker : Worker},
      pickVictim ordered.job snap held left = some (running, worker) →
        running ∈ snap.running ∧ running.preemptible = true := by
    intro running worker picked
    unfold pickVictim at picked
    obtain ⟨other, listed, chosen⟩ :=
      List.mem_filterMap.mp ((List.perm_insertionSort _ _).mem_iff.mp (List.mem_of_head? picked))
    have same : running = other := victimOf_fst chosen
    subst same
    refine ⟨listed, ?_⟩
    by_contra spared
    rw [if_pos (Or.inl spared)] at chosen
    exact nomatch chosen
  revert preempts
  unfold decideJob decideStuck decideBest
  simp only
  split
  · nofun
  split
  · nofun
  split
  · nofun
  split
  · split
    · next running worker picked =>
      intro _
      split at picked
      · exact ⟨running, (picked_runs picked).1, (picked_runs picked).2, rfl⟩
      · cases picked
    · nofun
  · split <;> nofun

/-- What a decision promises: it is about its job, a placement on capacity that can vanish is not the last attempt, and
a victim runs with an attempt left. -/
structure Promise (sc : Scenario N) (run : List (Running N)) (pair : OrderedJob N × PolicyDecision N) : Prop where
  about : pair.2.job = pair.1.job.id
  retriable : pair.2.action = .place → ∀ ps, sc.poolSpec pair.2.chosenPool = some ps → ps.interruptible = true →
    pair.1.job.attempt + 1 < pair.1.job.maxAttempts
  victim : pair.2.action = .preempt → ∃ r ∈ run, r.job.id = pair.2.victim ∧ r.job.attempt < r.job.maxAttempts

/-- The snapshot shows the queue, the workers, the pools and what runs. -/
theorem snapshot_some {s : State N} {snap : Snapshot N} (made : snapshot sc now s = some snap) :
    snap.jobs = s.queue ∧ snap.workers = s.workers ∧ snap.running = s.run.map Running.listed ∧
      snap.pools = fun id => (sc.poolSpec id).map PoolSpec.pool := by
  unfold snapshot at made
  split at made
  · cases made
    exact ⟨rfl, rfl, rfl, rfl⟩
  · exact nomatch made

theorem promised {s : State N} {snap : Snapshot N} (made : snapshot sc now s = some snap) {policy : Policy N}
    {digest : String} {pair : OrderedJob N × PolicyDecision N} (member : pair ∈ policy.outcomes snap digest) :
    Promise sc s.run pair := by
  obtain ⟨jobs, workers, running, pools⟩ := snapshot_some made
  refine ⟨(mem_outcomes member).2, fun places ps found vanishes => ?_, fun preempts => ?_⟩
  · obtain ⟨-, left, next, outcome⟩ := decide_pair member
    cases outcome with
    | aside action => exact absurd places action
    | placed action on =>
        refine on.passes.retriable ?_
        rw [Snapshot.pool, pools, ← on.pool]
        show (((sc.poolSpec pair.2.chosenPool).map PoolSpec.pool).getD _).interruptible = true
        rw [found]
        exact vanishes
  · obtain ⟨before, after, split, same⟩ := outputs_pair member
    rw [same] at preempts
    obtain ⟨listed, member, preemptible, own⟩ := decideJob_victim preempts
    rw [running] at member
    obtain ⟨r, runs, rfl⟩ := List.mem_map.mp member
    rw [Running.listed, Bool.and_eq_true, decide_eq_true_iff] at preemptible
    exact ⟨r, runs, own.trans (congrArg (fun decision => decision.victim) same.symm), preemptible.2⟩

/-- The queue without the jobs that leave it. -/
def Applying.kept (p : Applying N) : List Job := p.state.queue.filter fun j => !p.remove.contains j.id

omit [Number N] in
theorem Applying.mem_kept {p : Applying N} {j : Job} : j ∈ p.kept ↔ j ∈ p.state.queue ∧ j.id ∉ p.remove := by
  rw [Applying.kept, List.mem_filter]
  simp

/-- Between the decisions: the books are sound for the jobs that stay in the queue, with room for the placements that
are still to come, whose jobs are in the queue as they were. -/
structure Carrying (sc : Scenario N) (arrived : List JobSpec) (before : State N)
    (pairs : List (OrderedJob N × PolicyDecision N)) (p : Applying N) : Prop where
  sound : Sound sc arrived (fun id => drawn (placing (onWorker id)) gpusOf pairs) p.kept p.state.run p.state
  removed : ∀ id ∈ p.remove, id ∈ before.queue.map Job.id
  rows : ∀ pair ∈ pairs, ∃ j ∈ p.kept, j.id = pair.1.job.id ∧ j.attempt = pair.1.job.attempt ∧
    j.maxAttempts = pair.1.job.maxAttempts ∧ j.requirements = pair.1.job.requirements
  others : ∀ r ∈ p.state.run, r.job.id ∉ before.queue.map Job.id → r ∈ before.run

namespace Carrying

variable {before : State N} {pair : OrderedJob N × PolicyDecision N}
  {pairs : List (OrderedJob N × PolicyDecision N)} {p p' : Applying N}

/-- What else the state remembers does not matter. -/
theorem of_same (carrying : Carrying sc arrived before pairs p) (remove : p'.remove = p.remove)
    (queue : p'.state.queue = p.state.queue) (run : p'.state.run = p.state.run)
    (completed : p'.state.completed = p.state.completed) (expired : p'.state.expired = p.state.expired)
    (lost : p'.state.lost = p.state.lost) (workers : p'.state.workers = p.state.workers) :
    Carrying sc arrived before pairs p' := by
  have kept : p'.kept = p.kept := by rw [Applying.kept, Applying.kept, remove, queue]
  refine ⟨?_, remove ▸ carrying.removed, kept ▸ carrying.rows, run ▸ carrying.others⟩
  rw [kept, run]
  exact carrying.sound.of_same completed expired lost workers

/-- A decision that places nothing spares nothing. -/
theorem drawn_other (other : pair.2.action ≠ .place) (id : WorkerID) :
    drawn (placing (onWorker id)) gpusOf pairs = drawn (placing (onWorker id)) gpusOf (pair :: pairs) := by
  obtain ⟨ordered, decision⟩ := pair
  have aside : placing (onWorker id) ordered decision = false := by
    rw [placing, decide_eq_false other, Bool.false_and]
  rw [drawn_cons, aside, if_neg Bool.false_ne_true, zero_add]

/-- A placement draws what its job asks for on its worker. -/
theorem drawn_place {asked : Requirements} (places : pair.2.action = .place)
    (same : asked = pair.1.job.requirements) (id : WorkerID) :
    drawn (placing (onWorker id)) gpusOf (pair :: pairs) =
      (if pair.2.chosenWorker = id then asked.gpus else 0) + drawn (placing (onWorker id)) gpusOf pairs := by
  obtain ⟨ordered, decision⟩ := pair
  have chosen : placing (onWorker id) ordered decision = decide (decision.chosenWorker = id) := by
    rw [placing, decide_eq_true places, Bool.true_and, onWorker]
  rw [drawn_cons, chosen, same]
  by_cases own : decision.chosenWorker = id
  · rw [if_pos (decide_eq_true own), if_pos own]
    rfl
  · rw [if_neg (by simpa using own), if_neg own]

/-- A decision that carries out nothing leaves the rest to be carried out. -/
theorem skip (carrying : Carrying sc arrived before (pair :: pairs) p) (other : pair.2.action ≠ .place) :
    Carrying sc arrived before pairs p where
  sound := carrying.sound.spare_eq (drawn_other other)
  removed := carrying.removed
  rows next member := carrying.rows next (List.mem_cons_of_mem pair member)
  others := carrying.others

/-- The job of a decision is found in the queue, among those that stay. -/
theorem found (carrying : Carrying sc arrived before (pair :: pairs) p) (apart : (arrived.map JobSpec.id).Nodup)
    (about : pair.2.job = pair.1.job.id) :
    ∃ j ∈ p.kept, p.state.queue.find? (fun j => j.id = pair.2.job) = some j ∧ j.id = pair.1.job.id ∧
      j.attempt = pair.1.job.attempt ∧ j.maxAttempts = pair.1.job.maxAttempts ∧
      j.requirements = pair.1.job.requirements := by
  obtain ⟨j, stays, own, row⟩ := carrying.rows pair List.mem_cons_self
  obtain ⟨queued, unremoved⟩ := Applying.mem_kept.mp stays
  cases first : p.state.queue.find? fun j => j.id = pair.2.job with
  | none =>
      have missing := List.find?_eq_none.mp first j queued
      exact absurd (by simpa using own.trans about.symm) missing
  | some other =>
      have same : other.id = pair.2.job := by simpa using List.find?_some first
      have level : other.id = j.id := same.trans (about.trans own.symm)
      have member : other ∈ p.kept := Applying.mem_kept.mpr ⟨List.mem_of_find?_eq_some first, level ▸ unremoved⟩
      have distinct := (List.nodup_append.mp (carrying.sound.distinct apart)).1
      have equal : other = j := List.inj_on_of_nodup_map distinct member stays level
      subst equal
      exact ⟨other, member, rfl, own, row⟩

/-- A job that leaves the queue stands before the jobs that stay. -/
theorem kept_split (carrying : Carrying sc arrived before pairs p) (apart : (arrived.map JobSpec.id).Nodup) {j : Job}
    (stays : j ∈ p.kept) (p' : Applying N) (queue : p'.state.queue = p.state.queue)
    (remove : p'.remove = j.id :: p.remove) : p.kept.Perm (j :: p'.kept) := by
  have distinct := (List.nodup_append.mp (carrying.sound.distinct apart)).1
  have others : p'.kept = p.kept.erase j := by
    rw [(List.Nodup.of_map _ distinct).erase_eq_filter, Applying.kept, Applying.kept, queue, remove, List.filter_filter]
    refine List.filter_congr fun other member => ?_
    by_cases gone : other.id ∈ p.remove
    · simp [gone]
    · have kept : other ∈ p.kept := Applying.mem_kept.mpr ⟨member, gone⟩
      by_cases same : other = j
      · simp [gone, same]
      · have differs : other.id ≠ j.id := fun level => same (List.inj_on_of_nodup_map distinct kept stays level)
        simp [gone, same, differs]
  rw [others]
  exact List.perm_cons_erase stays

/-- The jobs of the decisions that are still to come stay when the job of this one leaves. -/
theorem rows_rest (carrying : Carrying sc arrived before (pair :: pairs) p)
    (apart : ((pair :: pairs).map fun pair => pair.1.job.id).Nodup) {j : Job} (own : j.id = pair.1.job.id)
    {p' : Applying N} (queue : p'.state.queue = p.state.queue) (remove : p'.remove = j.id :: p.remove) :
    ∀ next ∈ pairs, ∃ other ∈ p'.kept, other.id = next.1.job.id ∧ other.attempt = next.1.job.attempt ∧
      other.maxAttempts = next.1.job.maxAttempts ∧ other.requirements = next.1.job.requirements := by
  intro next member
  obtain ⟨other, stays, same, row⟩ := carrying.rows next (List.mem_cons_of_mem pair member)
  obtain ⟨queued, unremoved⟩ := Applying.mem_kept.mp stays
  have differs : other.id ≠ j.id := by
    rw [same, own]
    intro level
    refine (List.nodup_cons.mp apart).1 ?_
    show pair.1.job.id ∈ pairs.map fun pair => pair.1.job.id
    rw [← level]
    exact List.mem_map_of_mem member
  refine ⟨other, Applying.mem_kept.mpr ⟨queue ▸ queued, ?_⟩, same, row⟩
  rw [remove, List.mem_cons, not_or]
  exact ⟨differs, unremoved⟩

variable (now) in
/-- A placement is carried out on room that was spared for it. -/
theorem placed (carrying : Carrying sc arrived before (pair :: pairs) p) (apart : (arrived.map JobSpec.id).Nodup)
    (single : ((pair :: pairs).map fun pair => pair.1.job.id).Nodup) (queued : pair.1.job ∈ before.queue)
    (promise : Promise sc before.run pair) (places : pair.2.action = .place) :
    Carrying sc arrived before pairs (carryOut sc now pair.2 p) := by
  obtain ⟨j, stays, first, own, attempt, limit, asked⟩ := carrying.found apart promise.about
  have step : carryOut sc now pair.2 p = place sc now pair.2 j p := by
    rw [carryOut, places]
    dsimp only
    rw [first]
  rw [step]
  have split := carrying.kept_split apart stays (place sc now pair.2 j p) rfl rfl
  have listed : j.id ∈ before.queue.map Job.id := own ▸ List.mem_map_of_mem queued
  refine ⟨?_, ?_, carrying.rows_rest single own rfl rfl, ?_⟩
  · refine ((carrying.sound.perm split (.refl _)).start rfl rfl ?_ ?_).of_same rfl rfl rfl rfl
    · intro vanishes
      show j.attempt + 1 < j.maxAttempts
      cases known : sc.poolSpec pair.2.chosenPool with
      | none =>
          rw [known] at vanishes
          exact nomatch vanishes
      | some ps =>
          rw [known] at vanishes
          rw [attempt, limit]
          exact promise.retriable places ps known vanishes
    · exact drawn_place places asked
  · intro id member
    rcases List.mem_cons.mp member with rfl | removed
    · exact listed
    · exact carrying.removed id removed
  · intro r member fresh
    rcases List.mem_append.mp member with runs | new
    · exact carrying.others r runs fresh
    · rw [List.mem_singleton.mp new] at fresh
      exact absurd listed fresh

variable (now) in
/-- A job that expires leaves the queue. -/
theorem expired (carrying : Carrying sc arrived before (pair :: pairs) p) (apart : (arrived.map JobSpec.id).Nodup)
    (single : ((pair :: pairs).map fun pair => pair.1.job.id).Nodup) (queued : pair.1.job ∈ before.queue)
    (promise : Promise sc before.run pair) (expires : pair.2.action = .expire) :
    Carrying sc arrived before pairs (carryOut sc now pair.2 p) := by
  obtain ⟨j, stays, first, own, -⟩ := carrying.found apart promise.about
  have step : carryOut sc now pair.2 p = expire j p := by
    rw [carryOut, expires]
    dsimp only
    rw [first]
  rw [step]
  have aside : pair.2.action ≠ .place := by
    rw [expires]
    nofun
  have split := carrying.kept_split apart stays (expire j p) rfl rfl
  refine ⟨?_, ?_, carrying.rows_rest single own rfl rfl, carrying.others⟩
  · exact (((carrying.sound.perm split (.refl _)).expire).spare_eq (drawn_other aside)).of_same rfl rfl rfl rfl
  · intro id member
    rcases List.mem_cons.mp member with rfl | removed
    · exact own ▸ List.mem_map_of_mem queued
    · exact carrying.removed id removed

/-- What a delay makes of a job of the queue. -/
def delayed (d : PolicyDecision N) (j : Job) : Job := if j.id = d.job then { j with notBefore := d.delayUntil } else j

omit [Number N] in
theorem delayed_keeps (d : PolicyDecision N) (j : Job) :
    (delayed d j).id = j.id ∧ (delayed d j).attempt = j.attempt ∧ (delayed d j).maxAttempts = j.maxAttempts ∧
      (delayed d j).requirements = j.requirements := by
  unfold delayed
  split <;> exact ⟨rfl, rfl, rfl, rfl⟩

variable (now) in
/-- A delay rewrites a job where it is. -/
theorem delay (carrying : Carrying sc arrived before (pair :: pairs) p) (delays : pair.2.action = .delay) :
    Carrying sc arrived before pairs (carryOut sc now pair.2 p) := by
  have aside : pair.2.action ≠ .place := by
    rw [delays]
    nofun
  have step : carryOut sc now pair.2 p =
      { p with
        state :=
          { p.state with
            queue := p.state.queue.map (delayed pair.2)
            delays := p.state.delays + 1 } } := by
    rw [carryOut, delays]
    rfl
  rw [step]
  have kept : (p.state.queue.map (delayed pair.2)).filter (fun j => !p.remove.contains j.id) =
      p.kept.map (delayed pair.2) := by
    rw [List.filter_map, Applying.kept]
    congr 1
    refine List.filter_congr fun j _ => ?_
    show (!p.remove.contains (delayed pair.2 j).id) = !p.remove.contains j.id
    rw [(delayed_keeps pair.2 j).1]
  refine ⟨?_, carrying.removed, ?_, carrying.others⟩
  · show Sound sc arrived _ (List.filter _ _) _ _
    rw [kept]
    exact ((carrying.sound.rewrite (delayed_keeps pair.2)).spare_eq (drawn_other aside)).of_same rfl rfl rfl rfl
  · intro next member
    obtain ⟨j, stays, own, attempt, limit, asked⟩ := carrying.rows next (List.mem_cons_of_mem pair member)
    obtain ⟨same, tried, bound, wants⟩ := delayed_keeps pair.2 j
    refine ⟨delayed pair.2 j, ?_, same.trans own, tried.trans attempt, bound.trans limit, wants.trans asked⟩
    show _ ∈ List.filter _ _
    rw [kept]
    exact List.mem_map_of_mem stays

variable (now) in
/-- A victim goes back to the queue, with the attempt it was promised. -/
theorem preempted (carrying : Carrying sc arrived before (pair :: pairs) p) (apart : (arrived.map JobSpec.id).Nodup)
    (sound : Sound sc arrived (fun _ => 0) before.queue before.run before) (promise : Promise sc before.run pair)
    (preempts : pair.2.action = .preempt) : Carrying sc arrived before pairs (carryOut sc now pair.2 p) := by
  have aside : pair.2.action ≠ .place := by
    rw [preempts]
    nofun
  obtain ⟨victim, ran, own, left⟩ := promise.victim preempts
  have apart_before := sound.distinct apart
  have unqueued : pair.2.victim ∉ before.queue.map Job.id := by
    intro waits
    exact (List.nodup_append.mp apart_before).2.2 _ waits _ (own ▸ List.mem_map_of_mem ran) rfl
  cases first : p.state.run.find? fun r => r.job.id = pair.2.victim with
  | none =>
      have step : carryOut sc now pair.2 p = p := by
        rw [carryOut, preempts]
        dsimp only
        rw [first]
      rw [step]
      exact carrying.skip aside
  | some r =>
      have step : carryOut sc now pair.2 p = preempt r p := by
        rw [carryOut, preempts]
        dsimp only
        rw [first]
      have same : r.job.id = pair.2.victim := by simpa using List.find?_some first
      have runs : r ∈ p.state.run := List.mem_of_find?_eq_some first
      have unmoved : r.job.id ∉ before.queue.map Job.id := same ▸ unqueued
      have equal : r = victim :=
        List.inj_on_of_nodup_map (List.nodup_append.mp apart_before).2.1 (carrying.others r runs unmoved) ran
          (same.trans own.symm)
      subst equal
      have unremoved : r.job.id ∉ p.remove := fun gone => unmoved (carrying.removed _ gone)
      have kept : (preempt r p).kept = p.kept ++ [r.requeued] := by
        have stays : (!p.remove.contains r.requeued.id) = true := by
          show (!p.remove.contains r.job.id) = true
          simpa using unremoved
        show (p.state.queue ++ [r.requeued]).filter (fun j => !p.remove.contains j.id) = _
        rw [List.filter_append, List.filter_cons, if_pos stays, List.filter_nil, Applying.kept]
      have distinct := (List.nodup_append.mp (carrying.sound.distinct apart)).2.1
      have split : p.state.run.Perm (r :: p.state.run.eraseP fun other => other.job.id = r.job.id) := by
        obtain ⟨other, front, back, -, level, whole, rest⟩ :=
          @List.exists_of_eraseP _ (fun other => other.job.id = r.job.id) _ r runs (decide_eq_true rfl)
        have member : other ∈ p.state.run := whole ▸ List.mem_append_right front List.mem_cons_self
        have found : other = r := List.inj_on_of_nodup_map distinct member runs (of_decide_eq_true level)
        rw [rest, ← found]
        exact whole ▸ List.perm_middle
      rw [step]
      refine ⟨?_, carrying.removed, ?_, ?_⟩
      · rw [kept]
        exact (((carrying.sound.perm (.refl _) split).requeue left).spare_eq (drawn_other aside)).of_same rfl rfl rfl rfl
      · intro next member
        obtain ⟨j, stays, row⟩ := carrying.rows next (List.mem_cons_of_mem pair member)
        rw [kept]
        exact ⟨j, List.mem_append_left _ stays, row⟩
      · exact fun other member => carrying.others other (List.mem_of_mem_eraseP member)

variable (now) in
/-- Carrying out a decision leaves the others to be carried out. -/
theorem step (carrying : Carrying sc arrived before (pair :: pairs) p) (apart : (arrived.map JobSpec.id).Nodup)
    (sound : Sound sc arrived (fun _ => 0) before.queue before.run before)
    (single : ((pair :: pairs).map fun pair => pair.1.job.id).Nodup) (queued : pair.1.job ∈ before.queue)
    (promise : Promise sc before.run pair) : Carrying sc arrived before pairs (applyDecision sc now p pair.2) := by
  have carried : ∀ {p' : Applying N}, Carrying sc arrived before (pair :: pairs) p' →
      Carrying sc arrived before pairs (carryOut sc now pair.2 p') := by
    intro p' carrying
    cases action : pair.2.action with
    | place => exact carrying.placed now apart single queued promise action
    | delay => exact carrying.delay now action
    | expire => exact carrying.expired now apart single queued promise action
    | preempt => exact carrying.preempted now apart sound promise action
    | wait =>
        have step : carryOut sc now pair.2 p' = p' := by
          rw [carryOut, action]
        rw [step]
        refine carrying.skip ?_
        rw [action]
        nofun
  have waited : pair.2.action = .wait → Carrying sc arrived before pairs p := by
    intro waits
    refine carrying.skip ?_
    rw [waits]
    nofun
  unfold applyDecision
  dsimp only
  by_cases fell : pair.2.fallbacks ≠ []
  · rw [if_pos fell]
    split
    · next unchanged => exact (waited unchanged.1).of_same rfl rfl rfl rfl rfl rfl rfl
    · exact carried (carrying.of_same rfl rfl rfl rfl rfl rfl rfl)
  · rw [if_neg fell]
    split
    · next unchanged => exact (waited unchanged.1).of_same rfl rfl rfl rfl rfl rfl rfl
    · exact carried (carrying.of_same rfl rfl rfl rfl rfl rfl rfl)

variable (now) in
/-- When all decisions are carried out, none is left. -/
theorem run : ∀ {pairs : List (OrderedJob N × PolicyDecision N)} {p : Applying N},
    Carrying sc arrived before pairs p → (arrived.map JobSpec.id).Nodup →
    Sound sc arrived (fun _ => 0) before.queue before.run before →
    (pairs.map fun pair => pair.1.job.id).Nodup → (∀ pair ∈ pairs, pair.1.job ∈ before.queue) →
    (∀ pair ∈ pairs, Promise sc before.run pair) →
      Carrying sc arrived before [] ((pairs.map Prod.snd).foldl (applyDecision sc now) p)
  | [], _, carrying, _, _, _, _, _ => carrying
  | pair :: pairs, _, carrying, apart, sound, single, queued, promises => by
      have next := carrying.step now apart sound single (queued pair List.mem_cons_self) (promises pair List.mem_cons_self)
      exact next.run apart sound (List.nodup_cons.mp single).2 (fun other member => queued other (List.mem_cons_of_mem pair member))
        fun other member => promises other (List.mem_cons_of_mem pair member)

end Carrying

/-- The books up to some time: whoever has arrived was due by then. -/
def Booked (sc : Scenario N) (now : Time) (s : State N) : Prop :=
  ∃ arrived, arrived ++ s.arrivals = sc.initial.arrivals ∧ (∀ a ∈ arrived, sc.start + a.submit ≤ now) ∧
    Sound sc arrived (fun _ => 0) s.queue s.run s

end

/-! ### Runs of one tick -/

/-- Nothing is interrupted. -/
def calm : Chance Rat where
  interrupts := fun _ => false
  decay := 1

end GpuBroker.ControlPlane.Sim
