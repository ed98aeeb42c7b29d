/-
This file is the wrapper of the HTTP server around the mutations of users: a
mutation and the receipt its retries are answered from are committed together,
under a lock on the key of the request that is taken before the key is looked up.

The wrapped handler is any script of statements on the other tables. Any number of
requests are in progress on one database, each may be rolled back at any point and
run again or given up, and the word of a commit may be lost. While the receipt of a key
is kept, a mutation under the key is committed at most once, whoever is answered
is answered alike, and a different request under the key has no effect.
-/
import GpuBroker.ControlPlane.Cancels
import GpuBroker.Library.Session

namespace GpuBroker.ControlPlane.Httpapi

open Library

/-! ### Errors and responses -/

/-- The errors of the application that the transport tells apart. -/
inductive Sentinel
  | unauthorized | forbidden | notFound | invalid | idempotencyReused | budget | quotaExceeded | queueFull
  | alreadyAcked | leaseInvalid | conflict | staleVersion | unavailable | illegalTransition
  deriving DecidableEq

/-- An error as it reaches the transport: what it wraps, what it says, and the committed offset
when it is an offset mismatch. -/
structure Failure where
  wraps : Option Sentinel
  message : String
  committed : Option Int := none
  deriving DecidableEq

/-- The stable mapping from application errors to status, code and hint. -/
def errorMap : Sentinel → Nat × String × String
  | .unauthorized => (401, "unauthorized", "send Authorization: Bearer <token>")
  | .forbidden => (403, "forbidden", "")
  | .notFound => (404, "not_found", "")
  | .invalid => (400, "invalid_request", "")
  | .idempotencyReused => (422, "idempotency_key_reused", "use a new Idempotency-Key for a different request")
  | .budget =>
      (422, "budget_insufficient", "raise the project budget, lower max_runtime_s, or restrict to a cheaper pool")
  | .quotaExceeded =>
      (429, "quota_exceeded", "wait for queued jobs to start or ask an operator to raise the quota")
  | .queueFull => (503, "queue_full", "retry after the Retry-After interval")
  | .alreadyAcked => (409, "already_acknowledged", "drop this dispatch; it is already running")
  | .leaseInvalid => (409, "lease_invalid", "the dispatch was altered or is not addressed to this worker")
  | .conflict => (409, "conflict", "")
  | .staleVersion => (409, "conflict", "retry the request")
  | .unavailable => (503, "unavailable", "retry with backoff")
  | .illegalTransition => (409, "illegal_transition", "")

/-- The stable error envelope. -/
structure ErrorDetail where
  code : String
  message : String
  hint : String
  requestID : String
  jobID : Option JobID
  offset : Option Int
  deriving DecidableEq

/-- A response, as it is buffered. -/
structure Response (Bytes : Type) where
  code : Nat
  header : List (String × String)
  body : Bytes
  deriving DecidableEq

variable {Tables Write RowLock Bytes Json Session : Type}

/-- The response to an error. The cause of an internal error is not sent. -/
def writeError (encode : ErrorDetail → Bytes) (requestID : String) (failure : Failure) (job : Option JobID) :
    Response Bytes :=
  let (code, name, message, hint) :=
    match failure.committed, failure.wraps with
    | some _, _ => (409, "offset_mismatch", failure.message, "resume the upload from the returned offset")
    | none, some sentinel =>
        let (code, name, hint) := errorMap sentinel
        (code, name, failure.message, hint)
    | none, none => (500, "internal", "internal error", "")
  { code
    header := (if code = 503 then [("Retry-After", "5")] else []) ++ [("Content-Type", "application/json")]
    body := encode ⟨name, message, hint, requestID, job, failure.committed⟩ }

/-- What a handler comes to when it does not fail: a response it wrote, or a refusal that it recorded as
a failed job. -/
inductive Handled (Bytes : Type) where
  | wrote (response : Response Bytes)
  | refusedJob (failure : Failure) (id : JobID)

/-! ### Requests and receipts -/

/-- A request to a route that mutates: its caller's key, the key it carries, and what reading its body
comes to. -/
structure Request (Bytes : Type) where
  principal : String
  key : String
  method : String
  path : String
  body : Except String Bytes
  requestID : String
  now : Time

/-- The receipt of a mutation. -/
structure IdempotencyRecord (Bytes : Type) where
  principal : String
  key : String
  method : String
  path : String
  bodyHash : String
  status : Nat
  response : Bytes
  createdAt : Time

/-- The primary key of a receipt. -/
def IdempotencyRecord.slot (record : IdempotencyRecord Bytes) : String × String := (record.principal, record.key)

def Request.slot (request : Request Bytes) : String × String := (request.principal, request.key)

/-- The database: the receipts, and the tables the handlers work on. -/
structure Base (Tables Bytes : Type) where
  tables : Tables
  receipts : Table (IdempotencyRecord Bytes) IdempotencyRecord.slot

/-- A row a transaction has written. -/
inductive Row (Write Bytes : Type) where
  | table (write : Write)
  | receipt (record : IdempotencyRecord Bytes)

def Row.own : Row Write Bytes → Option Write
  | table write => some write
  | receipt _ => none

/-- An advisory lock on the hashes of two texts, or a lock a handler takes. -/
abbrev Lock (RowLock : Type) := (Int × Int) ⊕ RowLock

/-- What the server is built on: the database's hash of a text, the hex digest of a body, the encoding
of an error, the column that keeps a response as a JSON value, and how the tables take a write. -/
structure Wire (Tables Write Bytes Json : Type) where
  hashtext : String → Int
  digest : Bytes → String
  encode : ErrorDetail → Bytes
  parse : Bytes → Option Json
  text : Json → Bytes
  parse_text : ∀ value, parse (text value) = some value
  apply : Tables → Write → Tables

/-- The database after a row. -/
def Wire.write (wire : Wire Tables Write Bytes Json) (base : Base Tables Bytes) :
    Row Write Bytes → Base Tables Bytes
  | .table row => { base with tables := wire.apply base.tables row }
  | .receipt record => { base with receipts := (base.receipts.insert record).getD base.receipts }

/-- How long receipts are kept: a day. -/
def retention : Duration := 24 * 3600000000

/-- Delete the receipts from before a moment. -/
def Base.pruneIdempotency (base : Base Tables Bytes) (before : Time) : Base Tables Bytes :=
  { base with receipts := base.receipts.erase fun record => record.createdAt < before }

/-! ### The wrapper -/

/-- A transaction of the server. -/
abbrev Body (Tables Write RowLock Bytes Result : Type) :=
  Script (Base Tables Bytes) (Row Write Bytes) (Lock RowLock) Failure Result

/-- Claim a key until commit, even an absent one, and look up its receipt. -/
def Wire.getIdempotency (wire : Wire Tables Write Bytes Json) (principal key : String) :
    Body Tables Write RowLock Bytes (Option (IdempotencyRecord Bytes)) :=
  .claim (.inl (wire.hashtext principal, wire.hashtext key)) <|
    .statement (fun base written => ((written.foldl wire.write base).receipts.find (principal, key), [])) .done

/-- Insert a receipt: refused when its response is not JSON, or its key is taken. -/
def Wire.insertReceipt (wire : Wire Tables Write Bytes Json) (record : IdempotencyRecord Bytes)
    (base : Base Tables Bytes) (written : List (Row Write Bytes)) :
    Except Failure Unit × List (Row Write Bytes) :=
  match wire.parse record.response with
  | none => (.error ⟨none, "invalid input syntax for type json", none⟩, [])
  | some value =>
      if ((written.foldl wire.write base).receipts.find record.slot).isSome then
        (.error ⟨some .conflict, "conflict: duplicate key value violates unique constraint", none⟩, [])
      else (.ok (), [.receipt { record with response := wire.text value }])

def Wire.putIdempotency (wire : Wire Tables Write Bytes Json) (record : IdempotencyRecord Bytes) :
    Body Tables Write RowLock Bytes Unit :=
  .statement (wire.insertReceipt record) fun answer =>
    match answer with
    | .ok () => .done ()
    | .error failure => .fail failure

/-- The response to what a handler came to. -/
def Wire.response (wire : Wire Tables Write Bytes Json) (request : Request Bytes) :
    Handled Bytes → Response Bytes
  | .wrote response => response
  | .refusedJob failure id => writeError wire.encode request.requestID failure (some id)

/-- The receipt of a request that was answered with a response. -/
def Wire.receipt (wire : Wire Tables Write Bytes Json) (request : Request Bytes) (body : Bytes)
    (response : Response Bytes) : IdempotencyRecord Bytes where
  principal := request.principal
  key := request.key
  method := request.method
  path := request.path
  bodyHash := wire.digest body
  status := response.code
  response := response.body
  createdAt := request.now

/-- Write the receipt of what the handler came to, and answer with it. -/
def Wire.record (wire : Wire Tables Write Bytes Json) (request : Request Bytes) (body : Bytes)
    (handled : Handled Bytes) : Body Tables Write RowLock Bytes (Response Bytes) := do
  wire.putIdempotency (wire.receipt request body (wire.response request handled))
  pure (wire.response request handled)

def keyRequired : Failure :=
  ⟨some .invalid, "invalid request: Idempotency-Key header (1..128 chars) is required on this route", none⟩

def reused : Failure :=
  ⟨some .idempotencyReused, "idempotency key reused with a different request", none⟩

/-- The receipt is of this request. -/
def Wire.matches (wire : Wire Tables Write Bytes Json) (request : Request Bytes) (body : Bytes)
    (prior : IdempotencyRecord Bytes) : Prop :=
  prior.bodyHash = wire.digest body ∧ prior.method = request.method ∧ prior.path = request.path

instance (wire : Wire Tables Write Bytes Json) (request : Request Bytes) (body : Bytes)
    (prior : IdempotencyRecord Bytes) : Decidable (wire.matches request body prior) :=
  inferInstanceAs (Decidable (_ ∧ _))

/-- The stored response, as a replay. -/
def replay (prior : IdempotencyRecord Bytes) : Response Bytes where
  code := prior.status
  header := [("Content-Type", "application/json"), ("Idempotent-Replay", "true")]
  body := prior.response

/-- Answer from the receipt there is, or run the handler and write one. -/
def Wire.guarded (wire : Wire Tables Write Bytes Json)
    (h : Request Bytes → Script Tables Write RowLock Failure (Handled Bytes)) (request : Request Bytes)
    (body : Bytes) : Option (IdempotencyRecord Bytes) → Body Tables Write RowLock Bytes (Response Bytes)
  | some prior => if ¬ wire.matches request body prior then .fail reused else pure (replay prior)
  | none => (h request).within Base.tables Row.own .table .inr >>= wire.record request body

/-- Commit the mutation and its replay receipt together. -/
def Wire.idempotent (wire : Wire Tables Write Bytes Json)
    (h : Request Bytes → Script Tables Write RowLock Failure (Handled Bytes)) (request : Request Bytes) :
    Body Tables Write RowLock Bytes (Response Bytes) :=
  if request.key = "" ∨ 128 < request.key.utf8ByteSize then .fail keyRequired
  else
    match request.body with
    | .error detail => .fail ⟨some .invalid, "invalid request: " ++ detail, none⟩
    | .ok body => wire.getIdempotency request.principal request.key >>= wire.guarded h request body

/-! ### Where a request stands -/

section Requests

variable (wire : Wire Tables Write Bytes Json)
  (h : Request Bytes → Script Tables Write RowLock Failure (Handled Bytes)) (calls : Session → Request Bytes)

/-- The lock on the key of a request. -/
def Wire.lock (request : Request Bytes) : Lock RowLock :=
  .inl (wire.hashtext request.principal, wire.hashtext request.key)

/-- A request that gets as far as the lookup of its key. -/
structure Admitted (request : Request Bytes) (body : Bytes) : Prop where
  read : request.body = .ok body
  keyed : ¬ (request.key = "" ∨ 128 < request.key.utf8ByteSize)

/-- The receipt is of the request. -/
def Receipted (request : Request Bytes) (record : IdempotencyRecord Bytes) : Prop :=
  ∃ body, Admitted request body ∧ wire.matches request body record

/-- The response says what the receipt does. -/
def Agrees (response : Response Bytes) (record : IdempotencyRecord Bytes) : Prop :=
  response.code = record.status ∧ wire.parse response.body = wire.parse record.response

/-- Where a request stands, and what it then knows of the receipt of its key. What a replay has found it
knows only of the key whose receipt is kept. -/
inductive Standing (slot : String × String) (base : Base Tables Bytes) (locks : Set (Lock RowLock))
    (request : Request Bytes) :
    Body Tables Write RowLock Bytes (Response Bytes) → List (Row Write Bytes) → Prop
  | begins {script} (same : script = wire.idempotent h request) : Standing slot base locks request script []
  | looks {script body} (admitted : Admitted request body) (mine : wire.lock request ∈ locks)
      (same : script = .statement
        (fun base written =>
          ((written.foldl wire.write base).receipts.find (request.principal, request.key), []))
        fun prior => wire.guarded h request body prior) : Standing slot base locks request script []
  | handles {script body} {written : List Write} {rest : Script Tables Write RowLock Failure (Handled Bytes)}
      (admitted : Admitted request body) (mine : wire.lock request ∈ locks)
      (absent : base.receipts.find request.slot = none)
      (same : script = (rest.within Base.tables Row.own .table .inr).bind (wire.record request body)) :
      Standing slot base locks request script (written.map .table)
  | answers {response record} {written : List Write} (mine : wire.lock request ∈ locks)
      (absent : base.receipts.find request.slot = none) (own : record.slot = request.slot)
      (receipted : Receipted wire request record) (agrees : Agrees wire response record) :
      Standing slot base locks request (.done response) (written.map .table ++ [.receipt record])
  | replays {response} (found : request.slot = slot → ∃ record, base.receipts.find slot = some record ∧
      Receipted wire request record ∧ Agrees wire response record) :
      Standing slot base locks request (.done response) []
  | fails {failure written} : Standing slot base locks request (.fail failure) written

variable {wire h calls} {slot : String × String} {base : Base Tables Bytes} {locks : Set (Lock RowLock)}
  {request : Request Bytes}

theorem Standing.claims {lock : Lock RowLock} {next : Body Tables Write RowLock Bytes (Response Bytes)}
    {written : List (Row Write Bytes)} (standing : Standing wire h slot base locks request (.claim lock next) written) :
    Standing wire h slot base (insert lock locks) request next written := by
  cases standing with
  | begins same =>
      unfold Wire.idempotent at same
      split at same
      · cases same
      · next keyed =>
        split at same
        · cases same
        · next body read =>
          cases same
          exact .looks ⟨read, keyed⟩ (Set.mem_insert _ _) rfl
  | looks admitted mine same => cases same
  | handles admitted mine absent same =>
      rename_i rest
      cases rest with
      | done handled | fail failure | statement run next => cases same
      | claim one rest =>
          cases same
          exact .handles admitted (Set.mem_insert_of_mem _ mine) absent rfl

/-- A request whose handler is done writes its receipt, or fails. -/
theorem standing_recorded {body : Bytes} {rows : List Write} {handled : Handled Bytes}
    (admitted : Admitted request body) (mine : wire.lock request ∈ locks)
    (absent : base.receipts.find request.slot = none) :
    let receipt := wire.receipt request body (wire.response request handled)
    let inserted := wire.insertReceipt receipt base (rows.map .table)
    Standing wire h slot base locks request
      (Script.bind (match inserted.1 with
        | .ok () => .done ()
        | .error failure => .fail failure) fun _ => .done (wire.response request handled))
      (rows.map .table ++ inserted.2) := by
  intro receipt inserted
  have insertion : inserted = wire.insertReceipt receipt base (rows.map .table) := rfl
  unfold Wire.insertReceipt at insertion
  split at insertion
  · rw [insertion]
    exact .fails
  · next value parsed =>
    split at insertion
    · rw [insertion]
      exact .fails
    · rw [insertion]
      refine .answers mine absent rfl ⟨body, admitted, rfl, rfl, rfl⟩ ⟨rfl, ?_⟩
      exact parsed.trans (wire.parse_text value).symm

theorem Standing.states {Value : Type}
    {action : Base Tables Bytes → List (Row Write Bytes) → Value × List (Row Write Bytes)}
    {next : Value → Body Tables Write RowLock Bytes (Response Bytes)} {written : List (Row Write Bytes)}
    (standing : Standing wire h slot base locks request (.statement action next) written) :
    Standing wire h slot base locks request (next (action base written).1) (written ++ (action base written).2) := by
  cases standing with
  | begins same =>
      unfold Wire.idempotent at same
      split at same
      · cases same
      · split at same
        · cases same
        · cases same
  | looks admitted mine same =>
      rename_i body
      cases same
      show Standing wire h slot base locks request
        (wire.guarded h request body (base.receipts.find request.slot)) []
      cases found : base.receipts.find request.slot with
      | none =>
          exact @Standing.handles _ _ _ _ _ wire h slot base locks request (wire.guarded h request body none) body []
            (h request) admitted mine found rfl
      | some prior =>
          unfold Wire.guarded
          simp only
          split
          · exact .fails
          · next same =>
            refine .replays fun here => ⟨prior, here ▸ found, ⟨body, admitted, not_not.mp same⟩, rfl, rfl⟩
  | handles admitted mine absent same =>
      rename_i body rows rest
      cases rest with
      | done handled =>
          cases same
          exact standing_recorded admitted mine absent
      | fail failure | claim one rest => cases same
      | statement run rest =>
          cases same
          have own : (rows.map Row.table : List (Row Write Bytes)).filterMap Row.own = rows := by
            rw [List.filterMap_map]
            exact List.filterMap_some
          simp only [own]
          rw [← List.map_append]
          exact .handles admitted mine absent rfl

/-- What committing rows of the tables, or one receipt after them, makes of the receipts. -/
theorem receipts_tables (rows : List Write) (base : Base Tables Bytes) :
    ((rows.map Row.table).foldl wire.write base).receipts = base.receipts := by
  induction rows generalizing base with
  | nil => rfl
  | cons row rest inductionHypothesis => exact inductionHypothesis _

theorem receipts_recorded (rows : List Write) (record : IdempotencyRecord Bytes) (base : Base Tables Bytes)
    (absent : base.receipts.find record.slot = none) (slot : String × String) :
    ((rows.map Row.table ++ [Row.receipt record]).foldl wire.write base).receipts.find slot =
      if slot = record.slot then some record else base.receipts.find slot := by
  rw [List.foldl_append, List.foldl_cons, List.foldl_nil]
  have kept := @receipts_tables _ _ _ _ wire rows base
  generalize (rows.map Row.table).foldl wire.write base = after at kept
  show ((after.receipts.insert record).getD after.receipts).find slot = _
  obtain ⟨table, grown⟩ := Table.insert_of_fresh absent
  rw [kept, grown, Option.getD_some, Table.find_insert grown]

/-- What a request that is done has written: nothing, on a replay, or its own receipt after rows of the
tables. -/
theorem Standing.done {response : Response Bytes} {written : List (Row Write Bytes)}
    (standing : Standing wire h slot base locks request (.done response) written) :
    (written = [] ∧ (request.slot = slot → ∃ record, base.receipts.find slot = some record ∧
        Receipted wire request record ∧ Agrees wire response record)) ∨
      ∃ (rows : List Write) (record : IdempotencyRecord Bytes),
        written = rows.map Row.table ++ [Row.receipt record] ∧ wire.lock request ∈ locks ∧
        base.receipts.find request.slot = none ∧ record.slot = request.slot ∧
        Receipted wire request record ∧ Agrees wire response record := by
  cases standing with
  | begins same =>
      unfold Wire.idempotent at same
      split at same
      · cases same
      · split at same
        · cases same
        · cases same
  | looks admitted mine same => cases same
  | handles admitted mine absent same =>
      rename_i rest
      cases rest with
      | done handled | fail failure | claim one rest | statement run rest => cases same
  | answers mine absent own receipted agrees =>
      exact Or.inr ⟨_, _, rfl, mine, absent, own, receipted, agrees⟩
  | replays found => exact Or.inl ⟨rfl, found⟩

theorem Standing.beside {other : Request Bytes} {others : Set (Lock RowLock)} {result : Response Bytes}
    {rows : List (Row Write Bytes)} {script : Body Tables Write RowLock Bytes (Response Bytes)}
    {written : List (Row Write Bytes)} (apart : ∀ lock ∈ locks, lock ∉ others)
    (ended : Standing wire h slot base others other (.done result) rows)
    (standing : Standing wire h slot base locks request script written) :
    Standing wire h slot (rows.foldl wire.write base) locks request script written := by
  rcases ended.done with ⟨rfl, _⟩ | ⟨tables, record, rfl, theirs, free, own, _⟩
  · exact standing
  · have fresh : base.receipts.find record.slot = none := own ▸ free
    have stays : wire.lock request ∈ locks → base.receipts.find request.slot = none →
        ((tables.map Row.table ++ [Row.receipt record]).foldl wire.write base).receipts.find request.slot =
          none := by
      intro mine absent
      rw [receipts_recorded tables record base fresh, if_neg]
      · exact absent
      · -- A request of the same key would hold the same lock.
        intro same
        have keys : (request.principal, request.key) = (other.principal, other.key) := same.trans own
        obtain ⟨principal, key⟩ := Prod.mk.inj keys
        refine apart _ mine ?_
        unfold Wire.lock
        rw [principal, key]
        exact theirs
    cases standing with
    | begins same => exact .begins same
    | looks admitted mine same => exact .looks admitted mine same
    | handles admitted mine absent same => exact .handles admitted mine (stays mine absent) same
    | answers mine absent mineToo receipted agrees =>
        exact .answers mine (stays mine absent) mineToo receipted agrees
    | replays found =>
        refine .replays fun here => ?_
        obtain ⟨prior, found, receipted⟩ := found here
        refine ⟨prior, ?_, receipted⟩
        rw [receipts_recorded tables record base fresh, if_neg]
        · exact found
        · rintro rfl
          rw [fresh] at found
          cases found
    | fails => exact .fails

/-- A change from outside leaves the receipts alone, or deletes old ones and not the one of a key. -/
def Retained (slot : String × String) (change : Base Tables Bytes → Base Tables Bytes)
    (base : Base Tables Bytes) : Prop :=
  (∃ now, change = (fun base => base.pruneIdempotency (now - retention)) ∧
      ∀ record, base.receipts.find slot = some record → now ≤ record.createdAt + retention) ∨
    ∃ tables : Base Tables Bytes → Tables, change = fun base => { base with tables := tables base }

theorem Retained.find {change : Base Tables Bytes → Base Tables Bytes} (retained : Retained slot change base) :
    (change base).receipts.find slot = base.receipts.find slot ∧
      ∀ other, base.receipts.find other = none → (change base).receipts.find other = none := by
  rcases retained with ⟨now, rfl, kept⟩ | ⟨tables, rfl⟩
  · refine ⟨?_, fun other absent => ?_⟩
    · show (base.receipts.erase _).find slot = _
      rw [Table.find_erase]
      cases found : base.receipts.find slot with
      | none => rfl
      | some record =>
          have recent := kept record found
          rw [Option.filter_some, if_pos]
          simp only [Bool.not_eq_true', decide_eq_false_iff_not, not_lt]
          exact sub_le_iff_le_add.mpr recent
    · show (base.receipts.erase _).find other = _
      rw [Table.find_erase, absent, Option.filter_none]
  · exact ⟨rfl, fun _ absent => absent⟩

theorem Standing.outside {change : Base Tables Bytes → Base Tables Bytes}
    {script : Body Tables Write RowLock Bytes (Response Bytes)} {written : List (Row Write Bytes)}
    (retained : Retained slot change base) (standing : Standing wire h slot base locks request script written) :
    Standing wire h slot (change base) locks request script written := by
  obtain ⟨same, absents⟩ := retained.find
  cases standing with
  | begins same => exact .begins same
  | looks admitted mine same => exact .looks admitted mine same
  | handles admitted mine absent same => exact .handles admitted mine (absents _ absent) same
  | answers mine absent own receipted agrees => exact .answers mine (absents _ absent) own receipted agrees
  | replays found => exact .replays fun here => by rw [same]; exact found here
  | fails => exact .fails

end Requests

/-! ### Runs of requests -/

section Runs

variable [DecidableEq Session] [DecidableEq RowLock] (wire : Wire Tables Write Bytes Json)
  (h : Request Bytes → Script Tables Write RowLock Failure (Handled Bytes)) (calls : Session → Request Bytes)

/-- Requests in progress on the database. -/
abbrev Requests (Tables Write RowLock Bytes Session : Type) :=
  Sessions (Base Tables Bytes) (Row Write Bytes) (Lock RowLock) Failure (Response Bytes) Session

/-- What is said of each request while the receipt of a key is kept. -/
def discipline (slot : String × String) :
    Sessions.Discipline wire.write fun one => wire.idempotent h (calls one) where
  stands base locks one := Standing wire h slot base locks (calls one)
  permits := Retained slot
  begins _ _ := .begins rfl
  claims standing := standing.claims
  states standing := standing.states
  beside _ apart ended standing := Standing.beside apart ended standing
  outside retained standing := standing.outside retained

/-- What the commits and the answers under a key say of its receipt. -/
structure Kept (opening : Base Tables Bytes) (slot : String × String)
    (sessions : Requests Tables Write RowLock Bytes Session) : Prop where
  honest : Sessions.Honest sessions
  made : ∀ record, sessions.store.receipts.find slot = some record →
    opening.receipts.find slot = some record ∨ ∃ entry ∈ sessions.log, (calls entry.1).slot = slot
  logged : ∀ entry ∈ sessions.log, (calls entry.1).slot = slot →
    ∃ record, sessions.store.receipts.find slot = some record ∧ Receipted wire (calls entry.1) record
  once : (sessions.log.filter fun entry => (calls entry.1).slot = slot ∧ entry.2.isEmpty = false).length ≤ 1
  answered : ∀ one response, sessions.stage one = .ended (.answered response) → (calls one).slot = slot →
    ∃ record, sessions.store.receipts.find slot = some record ∧
      Receipted wire (calls one) record ∧ Agrees wire response record

variable {wire h calls} {opening : Base Tables Bytes} {slot : String × String} {before after : Requests Tables Write RowLock Bytes Session}

omit [DecidableEq RowLock] in
/-- Who is answered after a request has come to another stage was answered before, or is the request. -/
theorem answered_update {one other : Session} {response : Response Bytes}
    {stage : Stage (Base Tables Bytes) (Row Write Bytes) (Lock RowLock) Failure (Response Bytes)}
    (ended : Function.update before.stage one stage other = .ended (.answered response)) :
    (other = one ∧ stage = .ended (.answered response)) ∨ before.stage other = .ended (.answered response) := by
  by_cases mine : other = one
  · rw [mine, Function.update_self] at ended
    exact Or.inl ⟨mine, ended⟩
  · rw [Function.update_of_ne mine] at ended
    exact Or.inr ended

omit [DecidableEq RowLock] in
/-- A commit that leaves the receipt of the key, and is of another key or a replay, keeps what is said
of the receipt. -/
theorem Kept.committed (kept : Kept wire calls opening slot before) {one : Session} {result : Response Bytes}
    {written : List (Row Write Bytes)} {ending : Ending Failure (Response Bytes)}
    (told : ending = .answered result ∨ ending = .lost)
    (honest : Sessions.Honest (before.commit wire.write one written ending))
    (same : (written.foldl wire.write before.store).receipts.find slot = before.store.receipts.find slot)
    (mine : (calls one).slot = slot → written = [] ∧ ∃ record, before.store.receipts.find slot = some record ∧
      Receipted wire (calls one) record ∧ Agrees wire result record) :
    Kept wire calls opening slot (before.commit wire.write one written ending) := by
  refine ⟨honest, fun record found => ?_, fun entry member here => ?_, ?_, fun other response ended here => ?_⟩
  · have found : (written.foldl wire.write before.store).receipts.find slot = some record := found
    rw [same] at found
    refine (kept.made record found).imp_right fun committed => ?_
    obtain ⟨entry, member, here⟩ := committed
    exact ⟨entry, List.mem_append_left _ member, here⟩
  · show ∃ record, (written.foldl wire.write before.store).receipts.find slot = some record ∧ _
    rw [same]
    rcases List.mem_append.mp member with earlier | last
    · exact kept.logged entry earlier here
    · rw [List.mem_singleton.mp last] at here ⊢
      obtain ⟨_, record, found, receipted, _⟩ := mine here
      exact ⟨record, found, receipted⟩
  · show ((before.log ++ [(one, written)]).filter _).length ≤ 1
    rw [List.filter_append, List.filter_singleton]
    have none : decide ((calls one).slot = slot ∧ written.isEmpty = false) = false := by
      refine decide_eq_false fun both => ?_
      rw [(mine both.1).1] at both
      cases both.2
    rw [none]
    simpa using kept.once
  · show ∃ record, (written.foldl wire.write before.store).receipts.find slot = some record ∧ _
    rw [same]
    rcases answered_update ended with ⟨rfl, answers⟩ | earlier
    · rcases told with told | told
      · rw [told] at answers
        cases answers
        exact (mine here).2
      · rw [told] at answers
        cases answers
    · exact kept.answered other response earlier here

omit [DecidableEq RowLock] in
/-- The first commit under a key makes its receipt. -/
theorem Kept.recorded (kept : Kept wire calls opening slot before) {one : Session} {result : Response Bytes}
    {tables : List Write} {record : IdempotencyRecord Bytes} {ending : Ending Failure (Response Bytes)}
    (told : ending = .answered result ∨ ending = .lost)
    (honest : Sessions.Honest (before.commit wire.write one (tables.map Row.table ++ [Row.receipt record]) ending))
    (mine : (calls one).slot = slot) (absent : before.store.receipts.find slot = none)
    (own : record.slot = slot) (receipted : Receipted wire (calls one) record) (agrees : Agrees wire result record) :
    Kept wire calls opening slot (before.commit wire.write one (tables.map Row.table ++ [Row.receipt record]) ending) := by
  have made : ((tables.map Row.table ++ [Row.receipt record]).foldl wire.write before.store).receipts.find slot =
      some record := by
    rw [receipts_recorded tables record before.store (own ▸ absent), if_pos own.symm]
  have unlogged : ∀ entry ∈ before.log, (calls entry.1).slot ≠ slot := fun entry member here => by
    obtain ⟨_, found, _⟩ := kept.logged entry member here
    rw [absent] at found
    cases found
  refine ⟨honest, fun _ _ => Or.inr ⟨_, List.mem_append_right _ List.mem_cons_self, mine⟩,
    fun entry member here => ?_, ?_, fun other response ended here => ?_⟩
  · rcases List.mem_append.mp member with earlier | last
    · exact absurd here (unlogged entry earlier)
    · rw [List.mem_singleton.mp last]
      exact ⟨record, made, receipted⟩
  · show ((before.log ++ [(one, _)]).filter _).length ≤ 1
    have nothing : before.log.filter (fun entry =>
        (calls entry.1).slot = slot ∧ entry.2.isEmpty = false) = [] :=
      List.filter_eq_nil_iff.mpr fun entry member both => unlogged entry member (of_decide_eq_true both).1
    rw [List.filter_append, nothing, List.nil_append]
    exact List.length_filter_le _ _
  · rcases answered_update ended with ⟨rfl, answers⟩ | earlier
    · rcases told with told | told
      · rw [told] at answers
        cases answers
        exact ⟨record, made, receipted, agrees⟩
      · rw [told] at answers
        cases answers
    · obtain ⟨_, found, _⟩ := kept.answered other response earlier here
      rw [absent] at found
      cases found

/-- A step keeps what is said of the receipt. -/
theorem Kept.moves (kept : Kept wire calls opening slot before) (stand : (discipline wire h calls slot).Stand before)
    (moved : Sessions.Moves wire.write (fun one => wire.idempotent h (calls one)) before after) :
    Kept wire calls opening slot after := by
  have honest := kept.honest.moves moved
  cases moved with
  | idle => exact kept
  | claims running free =>
      refine ⟨honest, kept.made, kept.logged, kept.once, fun one response ended here => ?_⟩
      rcases answered_update ended with ⟨_, answers⟩ | earlier
      · cases answers
      · exact kept.answered one response earlier here
  | states running =>
      refine ⟨honest, kept.made, kept.logged, kept.once, fun one response ended here => ?_⟩
      rcases answered_update ended with ⟨_, answers⟩ | earlier
      · cases answers
      · exact kept.answered one response earlier here
  | leaves running back =>
      refine ⟨honest, kept.made, kept.logged, kept.once, fun one response ended here => ?_⟩
      rcases answered_update ended with ⟨_, answers⟩ | earlier
      · rcases back with start | lost | ⟨error, _, raised⟩
        · cases start.symm.trans answers
        · cases lost.symm.trans answers
        · cases raised.symm.trans answers
      · exact kept.answered one response earlier here
  | commits running told =>
      rename_i one result written ending
      have standing : Standing wire h slot before.store (before.held one) (calls one) (.done result) written :=
        stand one _ _ running
      rcases standing.done with ⟨rfl, found⟩ | ⟨tables, record, rfl, _, absent, own, receipted, agrees⟩
      · exact kept.committed told honest rfl fun here => ⟨rfl, found here⟩
      · by_cases here : (calls one).slot = slot
        · rw [here] at absent own
          exact kept.recorded told honest here absent own receipted agrees
        · refine kept.committed told honest ?_ fun same => absurd same here
          rw [receipts_recorded tables record before.store (own ▸ absent), if_neg]
          exact fun same => here (own.symm.trans same.symm)

omit [DecidableEq Session] [DecidableEq RowLock] in
theorem Kept.changes (kept : Kept wire calls opening slot before) {change : Base Tables Bytes → Base Tables Bytes}
    (retained : Retained slot change before.store) :
    Kept wire calls opening slot { before with store := change before.store } := by
  have same : (change before.store).receipts.find slot = before.store.receipts.find slot := retained.find.1
  refine ⟨⟨kept.honest.logged, kept.honest.locked⟩, fun record found => ?_, fun entry member here => ?_, kept.once,
    fun one response ended here => ?_⟩
  · have found : (change before.store).receipts.find slot = some record := found
    rw [same] at found
    exact kept.made record found
  · show ∃ record, (change before.store).receipts.find slot = some record ∧ _
    rw [same]
    exact kept.logged entry member here
  · show ∃ record, (change before.store).receipts.find slot = some record ∧ _
    rw [same]
    exact kept.answered one response ended here

/-- Along a run, the commits and the answers under a key keep to its receipt. -/
theorem kept_run (base : Base Tables Bytes) (incidents : List (Incident (Base Tables Bytes) Session))
    (permitted : Sessions.Permitted wire.write (fun one => wire.idempotent h (calls one)) (Retained slot) incidents
      (Sessions.opening (fun one => wire.idempotent h (calls one)) base)) :
    Kept wire calls base slot
      ((Sessions.opening (fun one => wire.idempotent h (calls one)) base).run wire.write
        (fun one => wire.idempotent h (calls one)) incidents) := by
  refine ((discipline wire h calls slot).run permitted ?_ ?_ ?_ ?_).2
  · exact fun before after stand moved kept => kept.moves stand moved
  · exact fun before change retained kept => kept.changes retained
  · exact (discipline wire h calls slot).stand_opening base
  · exact ⟨.opening base, fun record found => Or.inl found, fun _ => nofun, Nat.zero_le 1, fun _ _ => nofun⟩

/-! ### Requests alone -/

omit [DecidableEq Session] [DecidableEq RowLock] in
theorem alone_admitted {request : Request Bytes} {body : Bytes} (admitted : Admitted request body)
    (base : Base Tables Bytes) : (wire.idempotent h request).alone base [] =
      (wire.guarded h request body (base.receipts.find request.slot)).alone base [] := by
  unfold Wire.idempotent
  rw [if_neg admitted.keyed, admitted.read]
  rfl

omit [DecidableEq RowLock] in
/-- A request under the key of a receipt that is not its own is refused. -/
theorem alone_reused {request : Request Bytes} {body : Bytes} (admitted : Admitted request body)
    {base : Base Tables Bytes} {prior : IdempotencyRecord Bytes}
    (found : base.receipts.find request.slot = some prior) (other : ¬ wire.matches request body prior) :
    (wire.idempotent h request).alone base [] = .error reused := by
  rw [alone_admitted admitted, found]
  unfold Wire.guarded
  simp only
  rw [if_pos other]
  rfl

omit [DecidableEq RowLock] in
/-- A request whose key has no receipt comes to what its handler does, and its receipt. -/
theorem alone_absent {request : Request Bytes} {body : Bytes} (admitted : Admitted request body)
    {base : Base Tables Bytes} (absent : base.receipts.find request.slot = none) {handled : Handled Bytes}
    {rows : List Write} (comes : (h request).alone base.tables [] = .ok (handled, rows)) {value : Json}
    (parsed : wire.parse (wire.response request handled).body = some value) :
    (wire.idempotent h request).alone base [] = .ok (wire.response request handled,
      rows.map Row.table ++ [Row.receipt
        { wire.receipt request body (wire.response request handled) with response := wire.text value }]) := by
  rw [alone_admitted admitted, absent]
  show (((h request).within Base.tables Row.own .table .inr).bind (wire.record request body)).alone base [] = _
  have inner := Script.alone_within (Base.tables : Base Tables Bytes → Tables)
    (Sum.inr : RowLock → Lock RowLock) (fun row => (rfl : Row.own (.table row : Row Write Bytes) = some row))
    (h request) base []
  rw [comes, List.map_nil] at inner
  rw [Script.alone_bind, inner]
  have free : ((rows.map Row.table).foldl wire.write base).receipts.find request.slot = none := by
    rw [receipts_tables]
    exact absent
  have inserted : wire.insertReceipt (wire.receipt request body (wire.response request handled)) base
      (rows.map Row.table) = (.ok (), [.receipt
        { wire.receipt request body (wire.response request handled) with response := wire.text value }]) := by
    unfold Wire.insertReceipt
    rw [show (wire.receipt request body (wire.response request handled)).response =
      (wire.response request handled).body from rfl, parsed]
    refine if_neg ?_
    rw [show (wire.receipt request body (wire.response request handled)).slot = request.slot from rfl, free]
    exact Bool.false_ne_true
  show (wire.record request body handled : Body Tables Write RowLock Bytes (Response Bytes)).alone base
    (rows.map Row.table) = _
  unfold Wire.record Wire.putIdempotency
  simp only [bind, pure, Script.bind, Script.alone, inserted]

/-- Two requests with different methods, paths or bodies. -/
def Differ (one other : Request Bytes) : Prop :=
  one.method ≠ other.method ∨ one.path ≠ other.path ∨
    ∃ body rest, one.body = .ok body ∧ other.body = .ok rest ∧ body ≠ rest

/-- The receipt of a request is not that of one that differs from it. -/
theorem Receipted.apart {one other : Request Bytes} {record : IdempotencyRecord Bytes}
    (collisionFree : ∀ body rest, one.body = .ok body → other.body = .ok rest →
      wire.digest body = wire.digest rest → body = rest)
    (receipted : Receipted wire one record) (differ : Differ one other) : ¬ Receipted wire other record := by
  rintro ⟨rest, admittedToo, digestToo, methodToo, pathToo⟩
  obtain ⟨body, admitted, digest, method, path⟩ := receipted
  rcases differ with methods | paths | ⟨first, second, readFirst, readSecond, bodies⟩
  · exact methods (method.symm.trans methodToo)
  · exact paths (path.symm.trans pathToo)
  · cases admitted.read.symm.trans readFirst
    cases admittedToo.read.symm.trans readSecond
    exact bodies (collisionFree _ _ admitted.read admittedToo.read (digest.symm.trans digestToo))

/-- Requests under one key in any order, each tried any number of times and broken off anywhere, while
the key's receipt is kept: a mutation is committed at most once; whoever is answered is answered
alike; a request that differs from one that was committed is not committed or answered, and
run to its end it is refused as a reuse; one that ends in an error has committed nothing; and while
nothing was committed under the key, a request that nothing disturbs is answered as its handler says. -/
theorem idempotent_requests (base : Base Tables Bytes)
    (collisionFree : ∀ one other body rest, (calls one).body = .ok body → (calls other).body = .ok rest →
      wire.digest body = wire.digest rest → body = rest)
    (slot : String × String) (incidents : List (Incident (Base Tables Bytes) Session))
    (retained : Sessions.Permitted wire.write (fun one => wire.idempotent h (calls one)) (Retained slot) incidents
      (Sessions.opening (fun one => wire.idempotent h (calls one)) base)) :
    let run := Sessions.run wire.write fun one => wire.idempotent h (calls one)
    let after := run (Sessions.opening (fun one => wire.idempotent h (calls one)) base) incidents
    (after.log.filter fun entry => (calls entry.1).slot = slot ∧ entry.2.isEmpty = false).length ≤ 1 ∧
      (∀ one other response another, (calls one).slot = slot → (calls other).slot = slot →
        after.stage one = .ended (.answered response) → after.stage other = .ended (.answered another) →
          response.code = another.code ∧ wire.parse response.body = wire.parse another.body) ∧
      (∀ one other, (calls one).slot = slot → (calls other).slot = slot → Differ (calls one) (calls other) →
        one ∈ after.log.map Prod.fst →
          other ∉ after.log.map Prod.fst ∧ (∀ response, after.stage other ≠ .ended (.answered response)) ∧
            ∀ body, (calls other).body = .ok body →
              (wire.idempotent h (calls other)).alone after.store [] = .error reused) ∧
      (∀ one failure, after.stage one = .ended (.raised failure) → one ∉ after.log.map Prod.fst) ∧
      ∀ one body handled rows, base.receipts.find slot = none → (∀ entry ∈ after.log, (calls entry.1).slot ≠ slot) →
        (calls one).slot = slot → Admitted (calls one) body →
        after.stage one = .running (wire.idempotent h (calls one)) [] →
        (∀ lock other, after.owner lock = some other → other = one) →
        (h (calls one)).alone after.store.tables [] = .ok (handled, rows) →
        (wire.parse (wire.response (calls one) handled).body).isSome = true →
          ∃ length, (run after (List.replicate length (.turn one))).stage one =
            .ended (.answered (wire.response (calls one) handled)) := by
  intro run after
  have kept : Kept wire calls base slot after := kept_run base incidents retained
  refine ⟨kept.once, ?_, ?_, ?_, ?_⟩
  · intro one other response another mine theirs answered also
    obtain ⟨record, found, _, code, body⟩ := kept.answered one response answered mine
    obtain ⟨same, foundToo, _, codeToo, bodyToo⟩ := kept.answered other another also theirs
    cases found.symm.trans foundToo
    exact ⟨code.trans codeToo.symm, body.trans bodyToo.symm⟩
  · intro one other mine theirs differ member
    obtain ⟨entry, logged, rfl⟩ := List.mem_map.mp member
    obtain ⟨record, found, receipted⟩ := kept.logged entry logged mine
    have apart : ¬ Receipted wire (calls other) record := receipted.apart (collisionFree _ _) differ
    refine ⟨fun committed => ?_, fun response answered => ?_, fun rest read => ?_⟩
    · obtain ⟨again, loggedToo, rfl⟩ := List.mem_map.mp committed
      obtain ⟨same, foundToo, receiptedToo⟩ := kept.logged again loggedToo theirs
      cases found.symm.trans foundToo
      exact apart receiptedToo
    · obtain ⟨same, foundToo, receiptedToo, _⟩ := kept.answered other response answered theirs
      cases found.symm.trans foundToo
      exact apart receiptedToo
    · obtain ⟨body, admitted, _⟩ := receipted
      have key : (calls other).key = (calls entry.1).key := congrArg Prod.snd (theirs.trans mine.symm)
      have admittedToo : Admitted (calls other) rest := ⟨read, by rw [key]; exact admitted.keyed⟩
      exact alone_reused admittedToo (theirs.symm ▸ found) fun matches_ => apart ⟨rest, admittedToo, matches_⟩
  · intro one failure raised member
    obtain ⟨entry, logged, rfl⟩ := List.mem_map.mp member
    rcases kept.honest.logged entry logged with lost | ⟨result, answered⟩
    · cases raised.symm.trans lost
    · cases raised.symm.trans answered
  · intro one body handled rows nothing unlogged mine admitted running free comes parsed
    have absent : after.store.receipts.find (calls one).slot = none := by
      rw [mine]
      by_contra present
      obtain ⟨record, found⟩ := Option.ne_none_iff_exists'.mp present
      rcases kept.made record found with early | ⟨entry, logged, here⟩
      · cases nothing.symm.trans early
      · exact unlogged entry logged here
    obtain ⟨value, parsed⟩ := Option.isSome_iff_exists.mp parsed
    obtain ⟨length, answered, _⟩ := Sessions.run_alone _ running free (alone_absent admitted absent comes parsed)
    exact ⟨length, answered⟩

end Runs

/-! ### Three cancellations under one key -/

/-- A body of the application as one statement of a request. -/
def performed {State Result : Type} (body : Transaction State Fault Result) (failure : Fault → Failure)
    (answer : Result → Handled Bytes) : Script State (State → State) RowLock Failure (Handled Bytes) :=
  .statement
    (fun tables written =>
      match Transaction.commit body (written.foldl (fun tables change => change tables) tables) with
      | (.ok result, _) => (Except.ok result, [fun tables => (Transaction.commit body tables).2])
      | (.error fault, _) => (Except.error fault, []))
    fun finished =>
      match finished with
      | .ok result => .done (answer result)
      | .error fault => .fail (failure fault)

/-- The handler that cancels a job. -/
def cancel (service : Service) (failure : Fault → Failure) (encode : Job → Bytes) (principal : Principal)
    (id : JobID) (request : Request Bytes) : Script Db (Db → Db) RowLock Failure (Handled Bytes) :=
  performed (service.cancel principal id request.requestID request.now request.now) failure fun job =>
    .wrote ⟨200, [("Content-Type", "application/json")], encode job⟩

/-- A wire whose digests are those of the two bodies below, and whose texts are JSON already. -/
def plainWire : Wire Db (Db → Db) String String where
  hashtext text := text.length
  digest body :=
    if body = "" then "e3b0c44298fc1c149afbf4c8996fb92427ae41e4649b934ca495991b7852b855"
    else "44136fa355b3678a1146ad16f7e8649e94fb4fc21fe77e8310c060f61caaff8a"
  encode detail := detail.code
  parse := some
  text value := value
  parse_text _ := rfl
  apply tables change := change tables

/-- A member cancels a job, tries again, and uses the key once more with another body. -/
def cancellation (try_ : Fin 3) : Request String where
  principal := "user:token"
  key := "key"
  method := "POST"
  path := "/v1/jobs/job/cancel"
  body := .ok (if try_ = 2 then "\x7b\x7d" else "")
  requestID := "request"
  now := hour

def cancelJob : Request String → Script Db (Db → Db) Empty Failure (Handled String) :=
  cancel plainService (fun _ => ⟨none, "", none⟩) (fun job => "\"" ++ job.state.text ++ "\"") retriedMember "job"

/-- The first is committed and the word of it lost while the second waits for the key. -/
def cancellations : List (Incident (Base Db String) (Fin 3)) :=
  [.turn 0, .turn 1, .turn 0, .turn 0, .turn 1, .turn 0, .cut 0, .turn 1, .turn 1, .turn 2, .turn 1, .turn 2, .turn 2,
    .turn 2]

/-- The job is cancelled once, the retry has the answer that was lost, and the other body is refused. -/
theorem idempotent_requests_cancelled :
    let base : Base Db String := ⟨(ControlPlane.run plainService (retriedRun 0) .initial).toDb, .empty⟩
    let after := (Sessions.opening (fun one => plainWire.idempotent cancelJob (cancellation one)) base).run
      plainWire.write (fun one => plainWire.idempotent cancelJob (cancellation one)) cancellations
    after.log.map (fun entry => (entry.1, entry.2.length)) = [(0, 2), (1, 0)] ∧
      (after.log.filter fun entry => (cancellation entry.1).slot = ("user:token", "key") ∧
        entry.2.isEmpty = false).length ≤ 1 ∧
      (after.stage 1).ending = some (.answered (replay
        (plainWire.receipt (cancellation 0) "" ⟨200, [], "\"CANCELLED\""⟩))) ∧
      (after.stage 2).ending = some (.raised reused) := by
  intro base after
  have ran : after.log.map (fun entry => (entry.1, entry.2.length)) = [(0, 2), (1, 0)] ∧
      (after.stage 1).ending = some (.answered (replay
        (plainWire.receipt (cancellation 0) "" ⟨200, [], "\"CANCELLED\""⟩))) ∧
      (after.stage 2).ending = some (.raised reused) := by
    decide +kernel
  refine ⟨ran.1, ?_, ran.2⟩
  refine (@idempotent_requests _ _ _ _ _ _ _ _ plainWire cancelJob cancellation base ?_ ("user:token", "key")
    cancellations (Sessions.permitted_inside _ _ rfl _)).1
  intro one other body rest read readToo same
  revert same
  cases read
  cases readToo
  revert one other
  decide

end GpuBroker.ControlPlane.Httpapi
