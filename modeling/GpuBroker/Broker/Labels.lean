/-
This file is the labels under which the public status page shows the members
(`src/gpu_broker/web/public.py`).

The page numbers the members by when they joined and writes the number in
letters: a loop puts the letter of the remainder in front and goes on with one
less than the quotient, so the numerals are the bijective ones. The labels are
assigned one after another to a dictionary by member. What a member is called
is therefore the number of members who joined before: no two members share a
name, and who joins later leaves it as it is.
-/
import GpuBroker.Library.Ordinals
import GpuBroker.Broker.Store

namespace GpuBroker.Broker

open Library

/-! ### The labels as the page computes them -/

/-- The members by name. -/
def Db.listUsers (db : Db) : List User := db.users.rows.mergeSort fun one other => one.userId ≤ other.userId

namespace Public

/-- `chr(ord("a") + place)`. -/
def letter (place : Nat) : Char := Char.ofNat ('a'.toNat + place)

/-- The loop that puts letters in front of a suffix, until the number that is left is negative. -/
def suffixOf (n : Nat) (suffix : List Char) : List Char :=
  if n / 26 = 0 then letter (n % 26) :: suffix
  else suffixOf (n / 26 - 1) (letter (n % 26) :: suffix)
termination_by n
decreasing_by omega

/-- What the member of an ordinal is called. -/
def label (index : Nat) : String := "user-" ++ String.ofList (suffixOf index [])

/-- The order of joining: `(u.created_at, u.user_id)`. -/
def joinedFirst (one other : User) : Bool :=
  one.createdAt < other.createdAt ∨ (one.createdAt = other.createdAt ∧ one.userId ≤ other.userId)

/-- `_labels`: the dictionary of labels, by member. -/
def labels (db : Db) : UserId → Option String :=
  (db.listUsers.mergeSort joinedFirst).zipIdx.foldl
    (fun out (user, index) => Function.update out user.userId (some (label index))) fun _ => none

/-! ### The letters of an ordinal -/

/-- The letters of a numeral are read back as its digits. -/
theorem numeral_of_letters (n : Nat) :
    ((numeral 26 n).map letter).map (fun char => char.toNat - 97) = numeral 26 n := by
  have table : ∀ place < 26, (letter place).toNat - 97 = place := by decide
  rw [List.map_map]
  refine (List.map_congr_left fun place member => ?_).trans (List.map_id _)
  exact table place (numeral_digits (by decide) n place member)

/-- The loop writes the numeral of its number in base 26. -/
theorem suffixOf_eq (n : Nat) (suffix : List Char) :
    suffixOf n suffix = (numeral 26 n).map letter ++ suffix := by
  induction n, suffix using suffixOf.induct with
  | case1 n suffix short => rw [suffixOf, if_pos short, numeral, if_pos short]; rfl
  | case2 n suffix long inductionHypothesis =>
      have spelt : numeral 26 n = numeral 26 (n / 26 - 1) ++ [n % 26] := by rw [numeral, if_neg long]
      rw [suffixOf, if_neg long, inductionHypothesis, spelt, List.map_append, List.append_assoc]
      rfl

theorem label_injective : Function.Injective label := by
  intro one other same
  have suffixes := String.ofList_injective ((String.append_right_inj _).mp same)
  rw [suffixOf_eq, suffixOf_eq, List.append_nil, List.append_nil] at suffixes
  have numerals := congrArg (List.map fun char => char.toNat - 97) suffixes
  rw [numeral_of_letters, numeral_of_letters] at numerals
  exact numeral_injective 26 numerals

/-! ### The order of joining -/

theorem joinedFirst_iff {one other : User} :
    joinedFirst one other = true ↔ one.createdAt < other.createdAt ∨
      (one.createdAt = other.createdAt ∧ one.userId ≤ other.userId) := by
  rw [joinedFirst, decide_eq_true_iff]

theorem joinedFirst_trans {one two three : User} (first : joinedFirst one two = true)
    (second : joinedFirst two three = true) : joinedFirst one three = true := by
  rw [joinedFirst_iff] at first second ⊢
  rcases first with first | ⟨same, first⟩ <;> rcases second with second | ⟨again, second⟩
  · exact .inl (first.trans second)
  · exact .inl (again ▸ first)
  · exact .inl (same ▸ second)
  · exact .inr ⟨same.trans again, String.le_trans first second⟩

theorem joinedFirst_total (one other : User) : joinedFirst one other = true ∨ joinedFirst other one = true := by
  rw [joinedFirst_iff, joinedFirst_iff]
  rcases lt_trichotomy one.createdAt other.createdAt with earlier | same | later
  · exact .inl (.inl earlier)
  · rcases String.le_total one.userId other.userId with before | after
    · exact .inl (.inr ⟨same, before⟩)
    · exact .inr (.inr ⟨same.symm, after⟩)
  · exact .inr (.inl later)

/-- Members who each joined no later than the other have one name. -/
theorem joinedFirst_antisymm {one other : User} (first : joinedFirst one other = true)
    (second : joinedFirst other one = true) : one.userId = other.userId := by
  rw [joinedFirst_iff] at first second
  rcases first with first | ⟨same, first⟩ <;> rcases second with second | ⟨again, second⟩
  · exact absurd first second.asymm
  · exact absurd again first.ne'
  · exact absurd same second.ne'
  · exact String.le_antisymm first second

/-- One member joined before another. -/
def before (one other : User) : Bool := !joinedFirst other one

theorem before_asymm (one other : User) (earlier : before one other = true) : before other one = false := by
  have unordered : joinedFirst other one = false := by simpa [before] using earlier
  have ordered := (joinedFirst_total one other).resolve_right (by simp [unordered])
  simp [before, ordered]

/-- Who joined later than a member did not join before. -/
theorem before_later {user new : User} (later : user.createdAt < new.createdAt) : before new user = false := by
  have ordered : joinedFirst user new = true := joinedFirst_iff.mpr (.inl later)
  simp [before, ordered]

/-- The members in the order of joining. -/
theorem ordered_perm (db : Db) : (db.listUsers.mergeSort joinedFirst).Perm db.users.rows :=
  (List.mergeSort_perm _ _).trans (List.mergeSort_perm _ _)

theorem ordered_distinct (db : Db) : ((db.listUsers.mergeSort joinedFirst).map User.userId).Nodup :=
  ((ordered_perm db).map _).nodup_iff.mpr db.users.distinct

/-- In the order of joining each member joined before those who follow. -/
theorem ordered_sorted (db : Db) :
    (db.listUsers.mergeSort joinedFirst).Pairwise fun one other => before one other = true := by
  have sorted : (db.listUsers.mergeSort joinedFirst).Pairwise fun one other => joinedFirst one other = true :=
    @List.pairwise_mergeSort _ joinedFirst (fun _ _ _ => joinedFirst_trans)
      (fun one other => by simpa using joinedFirst_total one other) _
  refine (sorted.and (List.pairwise_map.mp (ordered_distinct db))).imp ?_
  rintro one other ⟨first, differs⟩
  have apart : joinedFirst other one ≠ true := fun second => differs (joinedFirst_antisymm first second)
  simpa [before] using apart

/-! ### The dictionary -/

/-- A member who is not among those left keeps what the dictionary says. -/
theorem assigned_others {users : List User} {id : UserId} (absent : id ∉ users.map User.userId) (start : Nat)
    (out : UserId → Option String) :
    ((users.zipIdx start).foldl
      (fun out (user, index) => Function.update out user.userId (some (label index))) out) id = out id := by
  induction users generalizing start out with
  | nil => rfl
  | cons head rest inductionHypothesis =>
      rw [List.map_cons, List.mem_cons, not_or] at absent
      rw [List.zipIdx_cons, List.foldl_cons, inductionHypothesis absent.2]
      exact Function.update_of_ne absent.1 _ _

/-- Each member is assigned the label of the position. -/
theorem assigned_at {users : List User} (distinct : (users.map User.userId).Nodup) {position : Nat} {user : User}
    (found : users[position]? = some user) (start : Nat) (out : UserId → Option String) :
    ((users.zipIdx start).foldl
      (fun out (user, index) => Function.update out user.userId (some (label index))) out) user.userId =
      some (label (start + position)) := by
  induction users generalizing position start out with
  | nil => exact absurd found (by simp)
  | cons head rest inductionHypothesis =>
      rw [List.map_cons, List.nodup_cons] at distinct
      rw [List.zipIdx_cons, List.foldl_cons]
      cases position with
      | zero =>
          have same : head = user := by simpa using found
          subst same
          rw [assigned_others distinct.1, Nat.add_zero]
          exact Function.update_self _ _ _
      | succ position =>
          rw [inductionHypothesis distinct.2 (by simpa using found), Nat.add_assoc, Nat.add_comm 1]

/-- A member's label is that of the number of members who joined before. -/
theorem labels_of_mem {db : Db} {user : User} (member : user ∈ db.users.rows) :
    labels db user.userId = some (label (db.users.rows.countP fun other => before other user)) := by
  obtain ⟨position, found⟩ := List.getElem?_of_mem ((ordered_perm db).mem_iff.mpr member)
  have standing := countP_position before_asymm (ordered_sorted db) found
  rw [(ordered_perm db).countP_eq] at standing
  rw [labels, assigned_at (ordered_distinct db) found, Nat.zero_add, standing]

/-- Of two members one joined before the other, and with more members before. -/
theorem position_ne {db : Db} {one other : User} (member : one ∈ db.users.rows) (member' : other ∈ db.users.rows)
    (differs : one.userId ≠ other.userId) :
    (db.users.rows.countP fun third => before third one) ≠ db.users.rows.countP fun third => before third other := by
  intro same
  obtain ⟨position, found⟩ := List.getElem?_of_mem ((ordered_perm db).mem_iff.mpr member)
  obtain ⟨position', found'⟩ := List.getElem?_of_mem ((ordered_perm db).mem_iff.mpr member')
  have standing := countP_position before_asymm (ordered_sorted db) found
  have standing' := countP_position before_asymm (ordered_sorted db) found'
  rw [(ordered_perm db).countP_eq] at standing standing'
  rw [← standing, same, standing', found'] at found
  exact differs (congrArg User.userId (Option.some.inj found)).symm

/-! ### Distinct and lasting -/

/-- No two members have one label, over a club of any size, and a member's label stays as it is however many members
join later. -/
theorem labels_distinct_lasting :
    (∀ (db : Db) (one other : User), one ∈ db.users.rows → other ∈ db.users.rows → one.userId ≠ other.userId →
      ∃ name name', labels db one.userId = some name ∧ labels db other.userId = some name' ∧ name ≠ name') ∧
    Function.Injective label ∧
    (∀ (db later : Db) (joined : List User), later.users.rows.Perm (db.users.rows ++ joined) →
      ∀ user ∈ db.users.rows, (∀ new ∈ joined, user.createdAt < new.createdAt) →
        labels later user.userId = labels db user.userId) := by
  refine ⟨?_, label_injective, ?_⟩
  · intro db one other member member' differs
    refine ⟨_, _, labels_of_mem member, labels_of_mem member', fun same => ?_⟩
    exact position_ne member member' differs (label_injective same)
  · intro db later joined grown user member after
    have member' : user ∈ later.users.rows := grown.mem_iff.mpr (List.mem_append_left _ member)
    have count : (later.users.rows.countP fun other => before other user) = _ :=
      countP_joined grown fun new listed => before_later (after new listed)
    rw [labels_of_mem member', labels_of_mem member, count]

/-- A member of the club, by name and time of joining. -/
def member (name : UserId) (createdAt : Time) : User :=
  ⟨name, name, 0, 0, false, createdAt, none, "", ""⟩

/-- A club of two who joined at once. -/
def founders : Db := { Db.empty with users := ⟨[member "bob" 0, member "ann" 0], by decide⟩ }

/-- The club after a third joined. -/
def club : Db := { Db.empty with users := ⟨[member "bob" 0, member "ann" 0, member "abe" 1], by decide⟩ }

/-- The founders are told apart, and the third member does not change what one of them is called. -/
theorem founders_keep_names :
    (∃ name name', labels founders "ann" = some name ∧ labels founders "bob" = some name' ∧ name ≠ name') ∧
      labels club "ann" = labels founders "ann" := by
  refine ⟨labels_distinct_lasting.1 founders (member "ann" 0) (member "bob" 0) (by decide) (by decide) (by decide), ?_⟩
  exact labels_distinct_lasting.2.2 founders club [member "abe" 1] (List.Perm.refl _) (member "ann" 0) (by decide)
    (by decide)

end Public

end GpuBroker.Broker
