/-
This file is where a job's progress goes when its machine is taken away: the two
checkpoint stores, one on a filesystem and one in a bucket.

A checkpoint is the files of a directory and, written last, a manifest that
names them. Both stores keep it under the directory of its step and find the
newest one by its manifest, so the two differ in how they list manifests, in
what the filesystem clears away before it writes, and in what `fetch` looks at.

What a file says is left to a codec: the size of a file, its text, JSON and
timestamps, of which no more is asked than that what was written is read back.
-/
import Mathlib.Data.List.Sort
import Mathlib.Data.List.Dedup
import Mathlib.Data.List.TakeWhile
import GpuBroker.Library.Files
import GpuBroker.Broker.Money
import GpuBroker.Broker.Records

namespace GpuBroker.Broker

open Library

variable {Body Text : Type}

/-! ### Manifests -/

/-- A JSON value. Of a number with a fraction there is what `int` makes of it. -/
inductive Json where
  | null
  | bool (value : Bool)
  | int (value : Int)
  | real (whole : Int)
  | infinite
  | nan
  | text (value : String)
  | array (items : List Json)
  | object (fields : List (String × Json))

/-- The value `_manifest_body` dumps. -/
def Json.manifest (step : Int) (writtenAt : String) (files : List String) (bytes : Int) : Json :=
  .object [("step", .int step), ("written_at", .text writtenAt), ("files", .array (files.map .text)),
    ("bytes", .int bytes)]

/-- The parts of the standard library that checkpoints go through. -/
structure Codec (Body Text : Type) extends Stamps where
  size : Body → Nat
  encode : Text → Body
  decode : Body → Option Text
  dumps : Json → Text
  loads : Text → Option Json
  intOf : String → Option Int
  decode_encode : ∀ text, decode (encode text) = some text
  loads_dumps : ∀ step writtenAt files bytes,
    loads (dumps (Json.manifest step writtenAt files bytes)) =
      some (Json.manifest step writtenAt files bytes)

/-- What reading a manifest may raise. Of these `_read_manifest` catches the first kind, which are
`ValueError`, `KeyError` and `TypeError`. -/
inductive Fault where
  | caught
  | overflow
  | unicode
  deriving DecidableEq

/-- One complete checkpoint. An item of the files that is no string is `none`. -/
structure CheckpointRef where
  jobId : JobId
  step : Int
  key : String
  writtenAt : Time
  files : List (Option String)
  bytes : Int
  deriving DecidableEq

/-- `int(value)` -/
def Codec.toInt (codec : Codec Body Text) : Json → Except Fault Int
  | .bool value => .ok (if value then 1 else 0)
  | .int value => .ok value
  | .real whole => .ok whole
  | .infinite => .error .overflow
  | .text value =>
      match codec.intOf value with
      | some number => .ok number
      | none => .error .caught
  | _ => .error .caught

/-- A string item. -/
def Json.asText : Json → Option String
  | .text value => some value
  | _ => none

/-- `tuple(value)` -/
def Json.toTuple : Json → Except Fault (List (Option String))
  | .text value => .ok (value.toList.map fun letter => some letter.toString)
  | .array items => .ok (items.map Json.asText)
  | .object fields => .ok (fields.map fun field => some field.1)
  | _ => .error .caught

/-- `data[name]` -/
def fieldOf (data : List (String × Json)) (name : String) : Except Fault Json :=
  match data.lookup name with
  | some value => .ok value
  | none => .error .caught

/-- The text of a manifest. -/
def manifestBody (codec : Codec Body Text) (files : List String) (step : Int) (moment : Time)
    (total : Nat) : Text :=
  codec.dumps (Json.manifest step (codec.toIso moment) (files.insertionSort (· ≤ ·)) total)

/-- The reference a text holds, or why there is none. -/
def parseManifest (codec : Codec Body Text) (jobId : JobId) (key : String) (raw : Text) :
    Except Fault CheckpointRef := do
  let data ← match codec.loads raw with
    | some (.object data) => .ok data
    | _ => .error .caught
  let step ← codec.toInt (← fieldOf data "step")
  let writtenAt ← match ← fieldOf data "written_at" with
    | .text text =>
        match codec.fromIso text with
        | some moment => Except.ok moment
        | none => .error .caught
    | _ => .error .caught
  let files ← ((data.lookup "files").getD (.array [])).toTuple
  let bytes ← codec.toInt ((data.lookup "bytes").getD (.int 0))
  .ok { jobId, step, key, writtenAt, files, bytes }

/-- The reference a text holds; a text that holds none is passed over. -/
def readManifest (codec : Codec Body Text) (jobId : JobId) (key : String) (raw : Text) :
    Except Fault (Option CheckpointRef) :=
  match parseManifest codec jobId key raw with
  | .ok ref => .ok (some ref)
  | .error .caught => .ok none
  | .error fault => .error fault

/-- The newest checkpoint among manifests, each with the key of its checkpoint. -/
def newestOf (codec : Codec Body Text) (jobId : JobId) (manifests : List (String × Body)) :
    Except Fault (Option CheckpointRef) :=
  manifests.foldlM
    (fun best found => do
      let raw ← match codec.decode found.2 with
        | some raw => .ok raw
        | none => .error .unicode
      match ← readManifest codec jobId found.1 raw with
      | none => .ok best
      | some ref => .ok (if best.all fun other => other.step < ref.step then some ref else best))
    none

/-! ### Paths -/

/-- The name of a manifest. -/
def manifest : String := "MANIFEST.json"

/-- A name in a directory. -/
def child (directory name : String) : String := directory ++ "/" ++ name

/-- Is a path somewhere in a directory? -/
def within (directory path : String) : Bool := (child directory "").toList.isPrefixOf path.toList

/-- The entry of a directory that a path is, or is in. -/
def entryOf (directory path : String) : Option String :=
  if within directory path then
    some (.ofList ((path.toList.drop (child directory "").toList.length).takeWhile (· ≠ '/')))
  else none

/-- `path.rsplit("/", 1)[0]` -/
def parent (path : String) : String :=
  .ofList ((path.toList.reverse.dropWhile (· ≠ '/')).drop 1).reverse

/-- Digits, with zeros before them up to a width. -/
def zeroPadded (width : Nat) (digits : List Char) : List Char :=
  List.replicate (width - digits.length) '0' ++ digits

/-- `f"step-{step:012d}"` -/
def stepName (step : Int) : String :=
  "step-" ++ .ofList (if step < 0 then '-' :: zeroPadded 11 (Nat.toDigits 10 step.natAbs)
    else zeroPadded 12 (Nat.toDigits 10 step.natAbs))

/-! ### The stores -/

/-- The files of a directory. -/
structure Directory (Body : Type) where
  files : List (String × Body)
  distinct : (files.map Prod.fst).Nodup

/-- Where `put` is told to find what it saves: a path, with the directory that is there, if one is. -/
structure Source (Body : Type) where
  path : String
  directory : Option (Directory Body)

/-- What a store raises. -/
inductive CheckpointError where
  | notADirectory (path : String)
  | isADirectory (path : String)
  | noManifest (key : String)
  | missing (key name : String)
  | notAName (key : String)
  deriving DecidableEq

/-- The reference `put` returns. -/
def Directory.ref (codec : Codec Body Text) (directory : Directory Body) (jobId : JobId) (step : Int)
    (key : String) (moment : Time) : CheckpointRef :=
  { jobId, step, key, writtenAt := moment
    files := ((directory.files.map Prod.fst).insertionSort (· ≤ ·)).map some
    bytes := ((directory.files.map fun file => codec.size file.2).sum : Nat) }

/-- The content of the manifest of a directory. -/
def Directory.manifest (codec : Codec Body Text) (directory : Directory Body) (step : Int)
    (moment : Time) : Body :=
  codec.encode (manifestBody codec (directory.files.map Prod.fst) step moment
    (directory.files.map fun file => codec.size file.2).sum)

/-- The copies of the files of a directory. -/
def Directory.copies (directory : Directory Body) (target : String) : List (Edit Body) :=
  directory.files.map fun file => .write (child target file.1) file.2

/-- Checkpoints on a filesystem. -/
structure LocalCheckpointStore where
  root : String
  deriving DecidableEq

namespace LocalCheckpointStore

def dir (store : LocalCheckpointStore) (jobId : JobId) (step : Int) : String :=
  child (child store.root jobId) (stepName step)

def put (store : LocalCheckpointStore) (codec : Codec Body Text) (jobId : JobId) (step : Int)
    (source : Source Body) (moment : Time) : Filing Body CheckpointError CheckpointRef :=
  match source.directory with
  | none => .fail (.notADirectory source.path)
  | some directory => do
      let target := store.dir jobId step
      let old ← Program.read fun files => files.paths.filter fun path => within target path
      Filing.edits (old.map .remove)
      Filing.edits (directory.copies target)
      if directory.files.any fun file => within Broker.manifest file.1 then
        .fail (.isADirectory (child target Broker.manifest))
      else do
        -- Last, and only now is this checkpoint visible to `latest`.
        Filing.edits [.write (child target Broker.manifest) (directory.manifest codec step moment)]
        pure (directory.ref codec jobId step target moment)

def latest (store : LocalCheckpointStore) (codec : Codec Body Text) (jobId : JobId) (files : Files Body) :
    Except Fault (Option CheckpointRef) :=
  let jobRoot := child store.root jobId
  let candidates := (files.paths.filterMap (entryOf jobRoot)).dedup.insertionSort (· ≤ ·)
  newestOf codec jobId (candidates.filterMap fun candidate =>
    (files.find (child (child jobRoot candidate) Broker.manifest)).map fun body =>
      (child jobRoot candidate, body))

def fetch (ref : CheckpointRef) (files : Files Body) : Except CheckpointError (List (String × Body)) :=
  if (files.find (child ref.key Broker.manifest)).isSome then
    ref.files.mapM fun name =>
      match name with
      | none => .error (.notAName ref.key)
      | some name =>
          match files.find (child ref.key name) with
          | some body => .ok (name, body)
          | none => .error (.missing ref.key name)
  else .error (.noManifest ref.key)

end LocalCheckpointStore

/-- Checkpoints in a bucket. -/
structure S3CheckpointStore where
  pre : String
  deriving DecidableEq

namespace S3CheckpointStore

/-- How many keys a page of a listing holds. -/
def pageSize : Nat := 1000

/-- `S3CheckpointStore(client, bucket, prefix)` -/
def init (text : String) : S3CheckpointStore :=
  ⟨.ofList (((text.toList.dropWhile (· = '/')).reverse.dropWhile (· = '/')).reverse)⟩

def key (store : S3CheckpointStore) (jobId : JobId) (step : Int) : String :=
  child (child store.pre jobId) (stepName step)

def put (store : S3CheckpointStore) (codec : Codec Body Text) (jobId : JobId) (step : Int)
    (source : Source Body) (moment : Time) : Filing Body CheckpointError CheckpointRef :=
  match source.directory with
  | none => .fail (.notADirectory source.path)
  | some directory => do
      let base := store.key jobId step
      Filing.edits (directory.copies base)
      -- The manifest goes last: until it lands, `latest` cannot see this checkpoint.
      Filing.edits [.write (child base Broker.manifest) (directory.manifest codec step moment)]
      pure (directory.ref codec jobId step base moment)

/-- The keys of a listing from a token on, page by page, that end like a manifest. -/
def pages (keys : List String) : Nat → Nat → List String
  | 0, _ => []
  | turns + 1, token =>
      let page := (keys.drop token).take pageSize
      let found := page.filter fun key => Broker.manifest.toList.isSuffixOf key.toList
      if token + pageSize < keys.length then found ++ pages keys turns (token + pageSize) else found

/-- The keys of the manifests of a job. -/
def manifests (store : S3CheckpointStore) (jobId : JobId) (files : Files Body) : List String :=
  let keys := (files.paths.filter (within (child store.pre jobId))).insertionSort (· ≤ ·)
  pages keys (keys.length + 1) 0

def latest (store : S3CheckpointStore) (codec : Codec Body Text) (jobId : JobId) (files : Files Body) :
    Except Fault (Option CheckpointRef) :=
  newestOf codec jobId ((store.manifests jobId files).filterMap fun key =>
    (files.find key).map fun body => (parent key, body))

def fetch (ref : CheckpointRef) (files : Files Body) : Except CheckpointError (List (String × Body)) :=
  ref.files.mapM fun name =>
    match name with
    | none => .error (.notAName ref.key)
    | some name =>
        match files.find (child ref.key name) with
        | some body => .ok (name, body)
        | none => .error (.missing ref.key name)

end S3CheckpointStore

/-- A checkpoint store, of either kind. -/
inductive CheckpointStore where
  | onDisk (store : LocalCheckpointStore)
  | inBucket (store : S3CheckpointStore)

namespace CheckpointStore

def put (codec : Codec Body Text) (jobId : JobId) (step : Int) (source : Source Body) (moment : Time) :
    CheckpointStore → Filing Body CheckpointError CheckpointRef
  | onDisk store => store.put codec jobId step source moment
  | inBucket store => store.put codec jobId step source moment

def latest (codec : Codec Body Text) (jobId : JobId) (files : Files Body) :
    CheckpointStore → Except Fault (Option CheckpointRef)
  | onDisk store => store.latest codec jobId files
  | inBucket store => store.latest codec jobId files

def fetch (ref : CheckpointRef) (files : Files Body) :
    CheckpointStore → Except CheckpointError (List (String × Body))
  | onDisk _ => LocalCheckpointStore.fetch ref files
  | inBucket _ => S3CheckpointStore.fetch ref files

end CheckpointStore

/-! ### What a path says -/

@[simp] theorem toList_child (directory name : String) :
    (child directory name).toList = directory.toList ++ '/' :: name.toList := by
  simp [child]

theorem takeWhile_slash {text : List Char} (rest : List Char) (free : '/' ∉ text) :
    (text ++ '/' :: rest).takeWhile (· ≠ '/') = text := by
  rw [List.takeWhile_append_of_pos fun letter member => by
    simp only [ne_eq, decide_eq_true_eq]
    rintro rfl
    exact free member]
  simp

/-- A text without slashes is told from what follows the first slash after it. -/
theorem append_slash {one two rest other : List Char} (free : '/' ∉ one) (also : '/' ∉ two)
    (same : one ++ '/' :: rest = two ++ '/' :: other) : one = two ∧ rest = other := by
  have first : one = two := by
    rw [← takeWhile_slash rest free, same, takeWhile_slash other also]
  subst first
  exact ⟨rfl, (List.cons_inj_right _).mp (List.append_cancel_left same)⟩

theorem child_injective {directory one two : String} (same : child directory one = child directory two) :
    one = two := by
  have letters := congrArg String.toList same
  rw [toList_child, toList_child] at letters
  exact String.toList_inj.mp ((List.cons_inj_right _).mp (List.append_cancel_left letters))

theorem within_iff {directory path : String} :
    within directory path = true ↔ ∃ name, path = child directory name := by
  unfold within
  rw [List.isPrefixOf_iff_prefix, toList_child]
  constructor
  · rintro ⟨rest, letters⟩
    refine ⟨.ofList rest, String.toList_inj.mp ?_⟩
    rw [toList_child, String.toList_ofList, ← letters]
    simp
  · rintro ⟨name, rfl⟩
    exact ⟨name.toList, by simp⟩

theorem entryOf_child {directory entry : String} (free : '/' ∉ entry.toList) (name : String) :
    entryOf directory (child (child directory entry) name) = some entry := by
  have inside : within directory (child (child directory entry) name) = true :=
    within_iff.mpr ⟨child entry name, by simp [child, String.append_assoc]⟩
  rw [entryOf, if_pos inside]
  congr 1
  apply String.toList_inj.mp
  rw [String.toList_ofList, toList_child, toList_child, toList_child, List.append_assoc,
    List.cons_append, show (directory.toList ++ '/' :: "".toList).length =
      (directory.toList ++ ['/']).length from rfl,
    show directory.toList ++ '/' :: (entry.toList ++ '/' :: name.toList) =
      (directory.toList ++ ['/']) ++ (entry.toList ++ '/' :: name.toList) by simp, List.drop_left]
  exact takeWhile_slash _ free

theorem entryOf_within {directory path entry : String} (entered : entryOf directory path = some entry) :
    within directory path = true := by
  unfold entryOf at entered
  split at entered
  · next inside => exact inside
  · cases entered

theorem parent_child {directory name : String} (free : '/' ∉ name.toList) :
    parent (child directory name) = directory := by
  have turned : '/' ∉ name.toList.reverse := fun member => free (List.mem_reverse.mp member)
  apply String.toList_inj.mp
  rw [parent, String.toList_ofList, toList_child, List.reverse_append, List.reverse_cons,
    List.append_assoc, List.dropWhile_append_of_pos fun letter member => by
      simp only [ne_eq, decide_eq_true_eq]
      rintro rfl
      exact turned member]
  simp

theorem manifest_free : '/' ∉ manifest.toList := by decide +kernel

/-! ### Steps -/

theorem zeroPadded_digit {width number : Nat} {letter : Char}
    (member : letter ∈ zeroPadded width (Nat.toDigits 10 number)) : letter.isDigit = true := by
  rcases List.mem_append.mp member with zero | digit
  · rw [List.eq_of_mem_replicate zero]
    rfl
  · exact Nat.isDigit_of_mem_toDigits (by decide) (by decide) digit

theorem ofDigitChars_zeroPadded (width number : Nat) :
    Nat.ofDigitChars 10 (zeroPadded width (Nat.toDigits 10 number)) 0 = number := by
  rw [zeroPadded, Nat.ofDigitChars_append, Nat.ofDigitChars_replicate_zero, Nat.mul_zero,
    Nat.ofDigitChars_ten_toDigits]

theorem zeroPadded_free {width number : Nat} {letter : Char} (other : letter.isDigit = false) :
    letter ∉ zeroPadded width (Nat.toDigits 10 number) := by
  intro member
  rw [zeroPadded_digit member] at other
  cases other

theorem toList_stepName (step : Int) : (stepName step).toList = "step-".toList ++
    if step < 0 then '-' :: zeroPadded 11 (Nat.toDigits 10 step.natAbs)
    else zeroPadded 12 (Nat.toDigits 10 step.natAbs) := by
  rw [stepName, String.toList_append]
  congr 1
  exact String.toList_ofList

theorem stepName_free (step : Int) : '/' ∉ (stepName step).toList := by
  rw [toList_stepName, List.mem_append]
  rintro (head | tail)
  · exact absurd head (by decide +kernel)
  · split at tail
    · rcases List.mem_cons.mp tail with sign | digit
      · cases sign
      · exact zeroPadded_free rfl digit
    · exact zeroPadded_free rfl tail

/-- Each step has a directory of its own. -/
theorem stepName_injective {one two : Int} (same : stepName one = stepName two) : one = two := by
  have letters := congrArg String.toList same
  rw [toList_stepName, toList_stepName] at letters
  have tails := List.append_cancel_left letters
  have size : ∀ {width other : Nat}, zeroPadded width (Nat.toDigits 10 one.natAbs) =
      zeroPadded other (Nat.toDigits 10 two.natAbs) → one.natAbs = two.natAbs := by
    intro width other padded
    rw [← ofDigitChars_zeroPadded width one.natAbs, padded, ofDigitChars_zeroPadded]
  split at tails <;> split at tails
  · have same := size (List.cons_inj_right _ |>.mp tails)
    omega
  · exact absurd (tails ▸ List.mem_cons_self) (zeroPadded_free rfl)
  · exact absurd (tails.symm ▸ List.mem_cons_self) (zeroPadded_free rfl)
  · have same := size tails
    omega

/-- The files of a checkpoint are apart from those of every other step. -/
theorem place_injective {top one two : String} {first second : Int}
    (same : child (child top (stepName first)) one = child (child top (stepName second)) two) :
    first = second ∧ one = two := by
  have letters := congrArg String.toList same
  simp only [toList_child, List.append_assoc, List.cons_append] at letters
  obtain ⟨name, rest⟩ := append_slash (stepName_free first) (stepName_free second)
    ((List.cons_inj_right _).mp (List.append_cancel_left letters))
  exact ⟨stepName_injective (String.toList_inj.mp name), String.toList_inj.mp rest⟩

end GpuBroker.Broker
