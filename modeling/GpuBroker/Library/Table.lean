/-
This file is the relational table the two stores of the development are built
from: a list of rows no two of which share a primary key.

The uniqueness of the keys is a field of the table, so a store that holds
tables cannot hold two rows under one key. Four operations make and change a
table: inserting a row (refused when its key is taken), changing the rows a
predicate selects, deleting the rows a predicate selects, and the empty table.
What an operation does is said twice, once by what `find` returns afterwards
and once by what a sum over the rows becomes, and nothing later unfolds a table
past these two readings.
-/
import Mathlib.Algebra.BigOperators.Group.List.Basic
import Mathlib.Algebra.Order.BigOperators.Group.List
import Mathlib.Algebra.Ring.Int.Defs
import Mathlib.Data.List.Nodup

namespace GpuBroker.Library

/-- A table: rows in insertion order, no two of them with the same key. -/
structure Table {Key : Type} (Row : Type) (key : Row → Key) where
  rows : List Row
  distinct : (rows.map key).Nodup

namespace Table

variable {Row Key : Type} {key : Row → Key} [DecidableEq Key]

/-- The table without rows. -/
def empty : Table Row key := ⟨[], List.nodup_nil⟩

/-- The row under a key. -/
def find (table : Table Row key) (id : Key) : Option Row :=
  table.rows.find? fun row => key row = id

/-- The first row a predicate selects. -/
def select (table : Table Row key) (which : Row → Bool) : Option Row :=
  table.rows.find? which

/-- Append a row, refused when its key is taken. -/
def insert (table : Table Row key) (row : Row) : Option (Table Row key) :=
  if fresh : key row ∈ table.rows.map key then none
  else some ⟨table.rows ++ [row], by
    rw [List.map_append, List.nodup_append]
    refine ⟨table.distinct, List.nodup_singleton _, ?_⟩
    rintro taken member _ single rfl
    exact fresh (List.mem_singleton.mp single ▸ member)⟩

/-- Rewrite every row a predicate selects; keys stay. -/
def update (table : Table Row key) (which : Row → Bool) (set : Row → Row)
    (same : ∀ row, key (set row) = key row := by intro _; rfl) : Table Row key :=
  ⟨table.rows.map fun row => if which row then set row else row, by
    rw [List.map_map, show (key ∘ fun row => if which row then set row else row) = key from
      funext fun row => by by_cases chosen : which row <;> simp [chosen, same]]
    exact table.distinct⟩

/-- Rewrite the row under a key, if there is one. -/
def modify (table : Table Row key) (id : Key) (set : Row → Row)
    (same : ∀ row, key (set row) = key row := by intro _; rfl) : Table Row key :=
  table.update (fun row => key row = id) set same

/-- Delete every row a predicate selects. -/
def erase (table : Table Row key) (which : Row → Bool) : Table Row key :=
  ⟨table.rows.filter fun row => !which row,
    table.distinct.sublist ((List.filter_sublist).map key)⟩

/-- Put a row in place of the one under its key, if there is one. -/
def put (table : Table Row key) (row : Row) : Table Row key :=
  ⟨(table.erase fun other => key other = key row).rows ++ [row], by
    rw [List.map_append, List.nodup_append]
    refine ⟨(table.erase _).distinct, List.nodup_singleton _, ?_⟩
    rintro taken member _ single rfl
    obtain ⟨other, kept, same⟩ := List.mem_map.mp member
    have gone := List.of_mem_filter kept
    rw [List.mem_singleton.mp single] at same
    simp [same] at gone⟩

/-- The sum of a quantity over the rows. -/
def total (table : Table Row key) (amount : Row → Int) : Int :=
  (table.rows.map amount).sum

/-! ### What a key finds -/

theorem find_key {table : Table Row key} {id : Key} {row : Row}
    (found : table.find id = some row) : key row = id := by
  simpa using List.find?_some found

theorem find_mem {table : Table Row key} {id : Key} {row : Row}
    (found : table.find id = some row) : row ∈ table.rows :=
  List.mem_of_find?_eq_some found

/-- A row is found under its own key: the keys are distinct, so no earlier row hides it. -/
theorem find_of_mem {table : Table Row key} {row : Row} (member : row ∈ table.rows) :
    table.find (key row) = some row := by
  obtain ⟨rows, distinct⟩ := table
  show rows.find? _ = some row
  induction rows with
  | nil => exact absurd member List.not_mem_nil
  | cons head rest inductionHypothesis =>
      rw [List.map_cons, List.nodup_cons] at distinct
      rcases List.mem_cons.mp member with rfl | later
      · rw [List.find?_cons_of_pos (by simp)]
      · have differs : key head ≠ key row := fun same =>
          distinct.1 (same ▸ List.mem_map_of_mem later)
        rw [List.find?_cons_of_neg (by simp [differs])]
        exact inductionHypothesis distinct.2 later

theorem find_eq_none {table : Table Row key} {id : Key} :
    table.find id = none ↔ id ∉ table.rows.map key := by
  simp [find, List.find?_eq_none]

theorem select_mem {table : Table Row key} {which : Row → Bool} {row : Row}
    (found : table.select which = some row) :
    table.find (key row) = some row ∧ which row = true :=
  ⟨find_of_mem (List.mem_of_find?_eq_some found), List.find?_some found⟩

@[simp] theorem find_empty (id : Key) : (empty : Table Row key).find id = none := rfl

/-- An insertion that succeeds had a free key and adds exactly that row. -/
theorem insert_eq_some {table grown : Table Row key} {row : Row}
    (inserted : table.insert row = some grown) :
    table.find (key row) = none ∧ grown.rows = table.rows ++ [row] := by
  unfold insert at inserted
  split at inserted
  · exact absurd inserted (by simp)
  · next fresh =>
    cases inserted
    exact ⟨find_eq_none.mpr fresh, rfl⟩

/-- A row whose key is free can be inserted. -/
theorem insert_of_fresh {table : Table Row key} {row : Row} (fresh : table.find (key row) = none) :
    ∃ grown, table.insert row = some grown :=
  ⟨_, dif_neg (find_eq_none.mp fresh)⟩

theorem find_insert {table grown : Table Row key} {row : Row}
    (inserted : table.insert row = some grown) (id : Key) :
    grown.find id = if id = key row then some row else table.find id := by
  obtain ⟨fresh, rows⟩ := insert_eq_some inserted
  unfold find at fresh ⊢
  rw [rows, List.find?_append]
  by_cases same : id = key row
  · subst same
    simp [fresh]
  · have other : ¬ key row = id := fun equal => same equal.symm
    simp [same, other]

theorem find_update (table : Table Row key) (which : Row → Bool) (set : Row → Row)
    (same : ∀ row, key (set row) = key row) (id : Key) :
    (table.update which set same).find id =
      (table.find id).map fun row => if which row then set row else row := by
  show (table.rows.map _).find? _ = _
  rw [List.find?_map]
  refine congrArg _ (congrArg (fun test => table.rows.find? test) (funext fun row => ?_))
  by_cases chosen : which row <;> simp [chosen, same]

@[simp] theorem find_modify (table : Table Row key) (target : Key) (set : Row → Row)
    (same : ∀ row, key (set row) = key row) (id : Key) :
    (table.modify target set same).find id =
      if id = target then (table.find id).map set else table.find id := by
  rw [modify, find_update]
  cases found : table.find id with
  | none => simp
  | some row =>
      have owned := find_key found
      by_cases chosen : id = target <;> simp [chosen, owned]

/-- Rewriting a row that is there, read back: the rewritten row under its key, and every other key
as before. -/
theorem find_modify_found {table : Table Row key} {target : Key} {row : Row}
    (found : table.find target = some row) (set : Row → Row)
    (same : ∀ row, key (set row) = key row) (id : Key) :
    (table.modify target set same).find id =
      if id = target then some (set row) else table.find id := by
  rw [find_modify]
  by_cases chosen : id = target
  · rw [if_pos chosen, if_pos chosen, chosen, found]
    rfl
  · rw [if_neg chosen, if_neg chosen]

/-- One row was written, new or over the one of its key, and every other key is as before. -/
def Sets (table next : Table Row key) (row : Row) : Prop :=
  ∀ id, next.find id = if id = key row then some row else table.find id

theorem Sets.find_self {table next : Table Row key} {row : Row} (sets : table.Sets next row) :
    next.find (key row) = some row :=
  (sets (key row)).trans (if_pos rfl)

theorem Sets.find_other {table next : Table Row key} {row : Row} (sets : table.Sets next row)
    {id : Key} (other : id ≠ key row) : next.find id = table.find id :=
  (sets id).trans (if_neg other)

/-- What a table holds after a write is the written row or was there before. -/
theorem Sets.found {table next : Table Row key} {row : Row} (sets : table.Sets next row)
    {id : Key} {other : Row} (found : next.find id = some other) :
    other = row ∧ id = key row ∨ id ≠ key row ∧ table.find id = some other := by
  by_cases own : id = key row
  · rw [own, sets.find_self] at found
    cases found
    exact Or.inl ⟨rfl, own⟩
  · exact Or.inr ⟨own, sets.find_other own ▸ found⟩

theorem sets_insert {table grown : Table Row key} {row : Row}
    (inserted : table.insert row = some grown) : table.Sets grown row :=
  find_insert inserted

theorem sets_modify {table : Table Row key} {target : Key} {row : Row}
    (found : table.find target = some row) (set : Row → Row)
    (same : ∀ row, key (set row) = key row) :
    table.Sets (table.modify target set same) (set row) := by
  intro id
  rw [find_modify_found found set same, same, find_key found]

/-- A row written twice is as it was written last. -/
theorem Sets.trans {table middle next : Table Row key} {one two : Row}
    (first : table.Sets middle one) (second : middle.Sets next two) (same : key two = key one) :
    table.Sets next two := by
  intro id
  rw [second id]
  split
  · rfl
  · next other => rw [first.find_other (same ▸ other)]

theorem find_erase (table : Table Row key) (which : Row → Bool) (id : Key) :
    (table.erase which).find id = (table.find id).filter fun row => !which row := by
  cases found : table.find id with
  | none =>
      rw [Option.filter_none, find_eq_none]
      refine fun member => find_eq_none.mp found ?_
      obtain ⟨row, kept, owned⟩ := List.mem_map.mp member
      exact List.mem_map.mpr ⟨row, List.mem_of_mem_filter kept, owned⟩
  | some row =>
      have owned := find_key found
      by_cases chosen : which row = true
      · rw [Option.filter_some, if_neg (by simp [chosen]), find_eq_none]
        intro member
        obtain ⟨other, kept, shared⟩ := List.mem_map.mp member
        have present := find_of_mem (List.mem_of_mem_filter kept)
        rw [shared, found] at present
        cases present
        simpa [chosen] using List.of_mem_filter kept
      · rw [Option.filter_some, if_pos (by simp [chosen]), ← owned]
        exact find_of_mem (List.mem_filter.mpr ⟨find_mem found, by simpa using chosen⟩)

theorem find_put (table : Table Row key) (row : Row) (id : Key) :
    (table.put row).find id = if id = key row then some row else table.find id := by
  have old := find_erase table (fun other => decide (key other = key row)) id
  unfold find at old ⊢
  unfold put
  rw [List.find?_append, old]
  by_cases mine : id = key row
  · subst mine
    rw [if_pos rfl, Option.filter_eq_none_iff.mpr fun other found => ?_]
    · simp
    · have owned := List.find?_some found
      simpa using owned
  · have foreign : ([row].find? fun other => decide (key other = id)) = none := by
      simp [Ne.symm mine]
    rw [if_neg mine, foreign, Option.or_none]
    cases found : table.rows.find? fun other => decide (key other = id) with
    | none => rfl
    | some other =>
        have owned : key other = id := by simpa using List.find?_some found
        exact Option.filter_some_pos (by simp [owned, mine])

/-- An update that selects no row changes nothing. -/
theorem update_none (table : Table Row key) (which : Row → Bool) (set : Row → Row)
    (same : ∀ row, key (set row) = key row)
    (idle : ∀ id row, table.find id = some row → which row = false) :
    table.update which set same = table := by
  obtain ⟨rows, distinct⟩ := table
  have unchanged : (rows.map fun row => if which row then set row else row) = rows := by
    conv_rhs => rw [← List.map_id rows]
    refine List.map_congr_left fun row member => ?_
    have present : (⟨rows, distinct⟩ : Table Row key).find (key row) = some row :=
      find_of_mem member
    have quiet := idle (key row) row present
    simp [quiet]
  simp only [update, unchanged]

/-- A predicate that holds of one row alone filters out that row. -/
theorem filter_single {table : Table Row key} {which : Row → Bool} {id : Key} {row : Row}
    (found : table.find id = some row) (chosen : which row = true)
    (only : ∀ other each, table.find other = some each → which each = true → other = id) :
    table.rows.filter which = [row] := by
  have same : ∀ each ∈ table.rows.filter which, each = row := by
    intro each member
    obtain ⟨present, holds⟩ := List.mem_filter.mp member
    have here := only _ each (find_of_mem present) holds
    have again := find_of_mem present
    rw [here, found] at again
    exact (Option.some.inj again).symm
  have distinct : (table.rows.filter which).Nodup :=
    (List.Nodup.of_map key table.distinct).filter _
  have member : row ∈ table.rows.filter which := List.mem_filter.mpr ⟨find_mem found, chosen⟩
  rw [List.eq_replicate_of_mem same] at distinct member ⊢
  have few := List.nodup_replicate.mp distinct
  have some_ := (List.mem_replicate.mp member).1
  rw [show (table.rows.filter which).length = 1 by omega]
  rfl

/-- A predicate that holds of no row filters out nothing. -/
theorem filter_none {table : Table Row key} {which : Row → Bool}
    (none : ∀ id row, table.find id = some row → which row = false) :
    table.rows.filter which = [] :=
  List.filter_eq_nil_iff.mpr fun row member => by
    rw [none _ row (find_of_mem member)]
    exact Bool.false_ne_true

/-! ### What a sum becomes -/

theorem total_insert {table grown : Table Row key} {row : Row}
    (inserted : table.insert row = some grown) (amount : Row → Int) :
    grown.total amount = table.total amount + amount row := by
  simp [total, (insert_eq_some inserted).2]

/-- Two quantities that agree on every row have the same sum. -/
theorem total_congr {table : Table Row key} {amount other : Row → Int}
    (agree : ∀ id row, table.find id = some row → amount row = other row) :
    table.total amount = table.total other :=
  congrArg List.sum (List.map_congr_left fun row member => agree _ row (find_of_mem member))

/-- Rewriting the row under a key leaves the number of rows a predicate selects, if it selects that row
as it did. -/
theorem filter_modify_length {table : Table Row key} {id : Key} (set : Row → Row)
    (same : ∀ row, key (set row) = key row) (which : Row → Bool)
    (agree : ∀ row, table.find id = some row → which (set row) = which row) :
    ((table.modify id set same).rows.filter which).length = (table.rows.filter which).length := by
  rw [← List.countP_eq_length_filter, ← List.countP_eq_length_filter]
  show (table.rows.map fun row => if decide (key row = id) = true then set row else row).countP which = _
  rw [List.countP_map]
  refine List.countP_congr fun row member => ?_
  by_cases here : key row = id
  · have found : table.find id = some row := here ▸ find_of_mem member
    simp [here, agree row found]
  · simp [here]

/-- Rewriting the row under a key moves a sum by the difference on that one row. -/
theorem total_modify {table : Table Row key} {id : Key} {row : Row}
    (found : table.find id = some row) (set : Row → Row)
    (same : ∀ row, key (set row) = key row) (amount : Row → Int) :
    (table.modify id set same).total amount = table.total amount - amount row + amount (set row) := by
  obtain ⟨rows, distinct⟩ := table
  change rows.find? _ = some row at found
  show ((rows.map _).map amount).sum = (rows.map amount).sum - amount row + amount (set row)
  induction rows with
  | nil => exact absurd found (by simp)
  | cons head rest inductionHypothesis =>
      rw [List.map_cons, List.nodup_cons] at distinct
      by_cases here : key head = id
      · rw [List.find?_cons_of_pos (by simpa using here)] at found
        cases found
        have untouched : (rest.map fun row => if key row = id then set row else row) = rest := by
          conv_rhs => rw [← List.map_id rest]
          refine List.map_congr_left fun row member => ?_
          have differs : key row ≠ id := fun equal =>
            distinct.1 (here.trans equal.symm ▸ List.mem_map_of_mem member)
          simp [differs]
        simp only [List.map_cons, List.sum_cons, decide_eq_true_eq, here, if_true, untouched]
        omega
      · rw [List.find?_cons_of_neg (by simpa using here)] at found
        have rest := inductionHypothesis distinct.2 found
        simp only [List.map_cons, List.sum_cons, decide_eq_true_eq, here, if_false] at rest ⊢
        omega

omit [DecidableEq Key] in
theorem total_update_same (table : Table Row key) (which : Row → Bool) (set : Row → Row)
    (same : ∀ row, key (set row) = key row) (amount : Row → Int)
    (kept : ∀ row, amount (set row) = amount row) :
    (table.update which set same).total amount = table.total amount := by
  show ((table.rows.map _).map amount).sum = _
  rw [List.map_map]
  refine congrArg List.sum (List.map_congr_left fun row _ => ?_)
  by_cases chosen : which row <;> simp [chosen, kept]

theorem total_nonneg {table : Table Row key} {amount : Row → Int}
    (each : ∀ id row, table.find id = some row → 0 ≤ amount row) : 0 ≤ table.total amount := by
  refine List.sum_nonneg fun value member => ?_
  obtain ⟨row, present, rfl⟩ := List.mem_map.mp member
  exact each _ row (find_of_mem present)

/-- A sum in which at most one row counts is that row's share. -/
theorem total_single {table : Table Row key} {amount : Row → Int} {id : Key} {row : Row}
    (found : table.find id = some row)
    (others : ∀ other found, table.find other = some found → other ≠ id → amount found = 0) :
    table.total amount = amount row := by
  have silenced : table.total amount = table.total fun each => if key each = id then amount row else 0 := by
    refine total_congr fun other each present => ?_
    by_cases same : other = id
    · subst same
      rw [found] at present
      cases present
      rw [if_pos (find_key found)]
    · rw [others other each present same, if_neg (find_key present ▸ same)]
  rw [silenced, total]
  have single : (table.rows.map key).count id = 1 :=
    List.count_eq_one_of_mem table.distinct
      (find_key found ▸ List.mem_map_of_mem (find_mem found))
  have counted : ∀ rows : List Row,
      (rows.map fun each => if key each = id then amount row else 0).sum =
        (rows.map key).count id * amount row := by
    intro rows
    induction rows with
    | nil => simp
    | cons head rest inductionHypothesis =>
        by_cases here : key head = id
        · simp [here, inductionHypothesis, Int.add_mul, add_comm]
        · simp [here, inductionHypothesis, List.count_cons_of_ne here]
  rw [counted, single]
  simp

/-- Rewriting the row under a key moves a sum by the difference on that one row, also when what is
summed changes there. -/
theorem total_rewrite {table : Table Row key} {id : Key} {row : Row}
    (found : table.find id = some row) (set : Row → Row) (same : ∀ row, key (set row) = key row)
    {amount later : Row → Int}
    (agree : ∀ other each, table.find other = some each → other ≠ id → later each = amount each) :
    (table.modify id set same).total later = table.total amount - amount row + later (set row) := by
  have shift : table.total (fun each => later each - amount each) = later row - amount row :=
    total_single found fun other each present differs => sub_eq_zero.mpr (agree other each present differs)
  have apart : table.total later = table.total amount + table.total fun each => later each - amount each := by
    simp [total, ← List.sum_map_add]
  rw [total_modify found, apart, shift]
  omega

/-- A sum in which no row counts is zero. -/
theorem total_zero {table : Table Row key} {amount : Row → Int}
    (none : ∀ id row, table.find id = some row → amount row = 0) : table.total amount = 0 := by
  have silent : table.total amount = table.total fun _ => 0 := total_congr none
  rw [silent, total]
  simp

end Table

end GpuBroker.Library
