/-
This file is contents under paths, changed one path at a time.

A change is written as a list of edits, and a process that is stopped on the way
has made the first of them. So what a crash may leave is what a prefix of the
edits leaves, and three facts say what that is: a path no edit touches is as it
was, what is found is old or was written, and what was written and not touched
again is found.
-/
import GpuBroker.Library.Table
import GpuBroker.Library.Program

namespace GpuBroker.Library

variable {Body Error Result : Type}

/-- Contents, each under its own path. -/
structure Files (Body : Type) where
  table : Table (String × Body) Prod.fst

/-- One change. -/
inductive Edit (Body : Type) where
  | write (path : String) (body : Body)
  | remove (path : String)

/-- The path a change is made at. -/
def Edit.path : Edit Body → String
  | write path _ => path
  | remove path => path

namespace Files

/-- No contents. -/
def empty : Files Body := ⟨.empty⟩

/-- What is under a path. -/
def find (files : Files Body) (path : String) : Option Body := (files.table.find path).map Prod.snd

/-- The paths that have contents. -/
def paths (files : Files Body) : List String := files.table.rows.map Prod.fst

/-- Make a change. What was under the path is replaced. -/
def edit (files : Files Body) : Edit Body → Files Body
  | .write path body => ⟨files.table.put (path, body)⟩
  | .remove path => ⟨files.table.erase fun row => row.1 = path⟩

/-- Make changes, one after another. -/
def editAll (files : Files Body) (edits : List (Edit Body)) : Files Body := edits.foldl edit files

theorem mem_paths {files : Files Body} {path : String} :
    path ∈ files.paths ↔ ∃ body, files.find path = some body := by
  constructor
  · intro member
    obtain ⟨⟨at_, body⟩, row, rfl⟩ := List.mem_map.mp member
    exact ⟨body, by rw [find, Table.find_of_mem row]; rfl⟩
  · rintro ⟨body, found⟩
    obtain ⟨row, hit, _⟩ := Option.map_eq_some_iff.mp found
    exact List.mem_map.mpr ⟨row, Table.find_mem hit, Table.find_key hit⟩

@[simp] theorem find_write (files : Files Body) (path : String) (body : Body) (other : String) :
    (files.edit (.write path body)).find other = if other = path then some body else files.find other := by
  unfold edit find
  rw [Table.find_put]
  split <;> rfl

@[simp] theorem find_remove (files : Files Body) (path other : String) :
    (files.edit (.remove path)).find other = if other = path then none else files.find other := by
  unfold edit find
  rw [Table.find_erase]
  cases found : files.table.find other with
  | none => simp
  | some row =>
      have owned := Table.find_key found
      have removed : decide (row.1 = path) = decide (other = path) := by rw [owned]
      by_cases same : other = path
      · rw [if_pos same, Option.filter_some_neg (by simp [removed, same])]
        rfl
      · rw [if_neg same, Option.filter_some_pos (by simp [removed, same])]

@[simp] theorem editAll_cons (files : Files Body) (edit : Edit Body) (edits : List (Edit Body)) :
    files.editAll (edit :: edits) = (files.edit edit).editAll edits := rfl

theorem editAll_append (files : Files Body) (one two : List (Edit Body)) :
    files.editAll (one ++ two) = (files.editAll one).editAll two := List.foldl_append

/-- One change leaves the other paths alone. -/
theorem find_edit_other {files : Files Body} {edit : Edit Body} {path : String} (other : path ≠ edit.path) :
    (files.edit edit).find path = files.find path := by
  cases edit with
  | write at_ body => exact (find_write files at_ body path).trans (if_neg other)
  | remove at_ => exact (find_remove files at_ path).trans (if_neg other)

/-- Changes leave the paths alone at which none is made. -/
theorem find_editAll_other {edits : List (Edit Body)} {files : Files Body} {path : String}
    (others : ∀ edit ∈ edits, path ≠ edit.path) : (files.editAll edits).find path = files.find path := by
  induction edits generalizing files with
  | nil => rfl
  | cons edit edits inductionHypothesis =>
      rw [editAll_cons, inductionHypothesis fun later member => others later (List.mem_cons_of_mem _ member)]
      exact find_edit_other (others edit List.mem_cons_self)

/-- What is found after changes was there before, or one of them wrote it. -/
theorem of_find_editAll {edits : List (Edit Body)} {files : Files Body} {path : String} {body : Body}
    (found : (files.editAll edits).find path = some body) :
    files.find path = some body ∨ .write path body ∈ edits := by
  induction edits generalizing files with
  | nil => exact .inl found
  | cons edit edits inductionHypothesis =>
      rcases inductionHypothesis found with before | written
      · cases edit with
        | write at_ wrote =>
            rw [find_write] at before
            split at before
            · next same =>
              cases before
              exact .inr (same ▸ List.mem_cons_self)
            · exact .inl before
        | remove at_ =>
            rw [find_remove] at before
            split at before
            · cases before
            · exact .inl before
      · exact .inr (List.mem_cons_of_mem _ written)

/-- What is written at a path of its own is found afterwards. -/
theorem find_editAll_write {edits : List (Edit Body)} {files : Files Body} {path : String} {body : Body}
    (apart : (edits.map Edit.path).Nodup) (written : .write path body ∈ edits) :
    (files.editAll edits).find path = some body := by
  induction edits generalizing files with
  | nil => cases written
  | cons edit edits inductionHypothesis =>
      obtain ⟨fresh, rest⟩ := List.nodup_cons.mp apart
      rw [editAll_cons]
      rcases List.mem_cons.mp written with rfl | later
      · have untouched : ∀ other ∈ edits, path ≠ other.path := fun other member same =>
          fresh (List.mem_map.mpr ⟨other, member, same.symm⟩)
        rw [find_editAll_other untouched, find_write, if_pos rfl]
      · exact inductionHypothesis rest later

end Files

/-! ### Programs that change files -/

/-- A program over files, whose transactions are single changes. -/
abbrev Filing (Body Error Result : Type) := Program (Files Body) (Edit Body) Error Result

namespace Filing

/-- Make changes, one after another, each an access of its own. -/
def edits : List (Edit Body) → Filing Body Error Unit
  | [] => pure ()
  | edit :: rest => do
      Program.commit edit fun files => .ok (files.edit edit)
      edits rest

/-- Past the changes a program goes on with what they leave. -/
theorem run_edits (list : List (Edit Body)) (rest : Unit → Filing Body Error Result) (more : Nat)
    (files : Files Body) :
    (edits list >>= rest).run (list.length + more) files = (rest ()).run more (files.editAll list) := by
  induction list generalizing files with
  | nil => rw [List.length_nil, Nat.zero_add]; rfl
  | cons edit list inductionHypothesis =>
      rw [List.length_cons, Nat.add_right_comm]
      exact inductionHypothesis _

/-- A program that is stopped before the last of its changes has made the first of them, and has not
come to an answer. -/
theorem run_edits_short {list : List (Edit Body)} (rest : Unit → Filing Body Error Result) {length : Nat}
    (short : length < list.length) (files : Files Body) :
    ((edits list >>= rest).run length files).2 = files.editAll (list.take length) ∧
      ((edits list >>= rest).run length files).1.answer = none := by
  induction list generalizing files length with
  | nil => cases short
  | cons edit list inductionHypothesis =>
      cases length with
      | zero => exact ⟨rfl, rfl⟩
      | succ length => exact inductionHypothesis (Nat.lt_of_succ_lt_succ short) _

/-- Changes one after another are one list of changes. -/
theorem edits_append (one two : List (Edit Body)) :
    (edits (one ++ two) : Filing Body Error Unit) = edits one >>= fun _ => edits two := by
  induction one with
  | nil => rfl
  | cons edit one inductionHypothesis =>
      show (Program.commit edit _ >>= fun _ => edits (one ++ two)) = _
      rw [inductionHypothesis]
      exact (bind_assoc _ _ _).symm

/-- Changes of which the last one publishes the others: a program stopped before has made the first of
them and has no answer, and otherwise all are made. -/
theorem run_publish (list : List (Edit Body)) (last : Edit Body) (result : Result) (length : Nat)
    (files : Files Body) :
    let program : Filing Body Error Result := edits list >>= fun _ => edits [last] >>= fun _ => pure result
    (length ≤ list.length → (program.run length files).1.answer = none ∧
        (program.run length files).2 = files.editAll (list.take length)) ∧
      (list.length < length → (program.run length files).1.answer = some result ∧
        (program.run length files).2 = (files.editAll list).edit last) := by
  intro program
  have past : ∀ more, program.run (list.length + more) files =
      Program.run more (edits [last] >>= fun _ => pure result : Filing Body Error Result)
        (files.editAll list) := fun more => run_edits list _ more files
  constructor
  · intro short
    rcases Nat.lt_or_eq_of_le short with before | rfl
    · obtain ⟨made, unanswered⟩ := run_edits_short
        (fun _ => (edits [last] >>= fun _ => pure result : Filing Body Error Result)) before files
      exact ⟨unanswered, made⟩
    · rw [← Nat.add_zero list.length, past 0, Nat.add_zero, List.take_length]
      exact ⟨rfl, rfl⟩
  · intro enough
    obtain ⟨more, rfl⟩ := Nat.exists_eq_add_of_lt enough
    rw [Nat.add_assoc, past (more + 1)]
    have published : Program.run (more + 1) (edits [last] >>= fun _ => pure result : Filing Body Error Result)
        (files.editAll list) = (pure result, (files.editAll list).edit last) := Program.run_done more result _
    rw [published]
    exact ⟨rfl, rfl⟩

/-- Changes after which a program raises. -/
theorem run_blocked (list : List (Edit Body)) (error : Error) (length : Nat) (files : Files Body) :
    let program : Filing Body Error Result := edits list >>= fun _ => .fail error
    (program.run length files).1.answer = none ∧
      (program.run length files).2 = files.editAll (list.take length) := by
  intro program
  rcases Nat.lt_or_ge length list.length with short | enough
  · obtain ⟨made, unanswered⟩ := run_edits_short (fun _ => (.fail error : Filing Body Error Result)) short files
    exact ⟨unanswered, made⟩
  · obtain ⟨more, rfl⟩ := Nat.exists_eq_add_of_le enough
    rw [show program.run (list.length + more) files = _ from run_edits list _ more files, Program.run_fail,
      List.take_of_length_le (by omega)]
    exact ⟨rfl, rfl⟩

end Filing

end GpuBroker.Library
