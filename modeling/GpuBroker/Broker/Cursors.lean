/-
This file is the output of a job on an EC2 machine, as the broker reads it: two
streams, a page of each at a poll, put together in memory in the order they were
read, and a cursor into that in the job's row.

A process that starts again reads the streams from their heads, with another
page at each poll than before, so its order may be another one. What it stores
past the cursor then continues each stream exactly when as many lines of each
come before the cursor as are stored of it.
-/
import GpuBroker.Broker.Output
import GpuBroker.Broker.Reclaims
import GpuBroker.Broker.Restores
import GpuBroker.Broker.Chores
import GpuBroker.Broker.Fleet
import GpuBroker.Broker.Tails

namespace GpuBroker.Broker

open Library Ec2Backend

variable {δ : Type}

/-! ### Lines of two streams -/

/-- The streams a command puts out. -/
def outputStreams : List String := ["stdout", "stderr"]

/-- The lines of one stream, in order. -/
def onStream (stream : String) (lines : List Line) : List String :=
  (lines.filter fun line => line.1 = stream).map Prod.snd

/-- Lines of nothing but these streams. -/
def OutputOnly (lines : List Line) : Prop := ∀ line ∈ lines, line.1 ∈ outputStreams

theorem onStream_append (stream : String) (first second : List Line) :
    onStream stream (first ++ second) = onStream stream first ++ onStream stream second := by
  unfold onStream
  rw [List.filter_append, List.map_append]

theorem onStream_same (stream : String) (page : List String) :
    onStream stream (page.map fun text => (stream, text)) = page := by
  unfold onStream
  rw [List.filter_eq_self.mpr fun line member => ?_, List.map_map]
  · exact List.map_id page
  · obtain ⟨text, _, rfl⟩ := List.mem_map.mp member
    exact decide_eq_true rfl

theorem onStream_other {stream other : String} (differs : other ≠ stream) (page : List String) :
    onStream stream (page.map fun text => (other, text)) = [] := by
  unfold onStream
  rw [List.filter_eq_nil_iff.mpr fun line member => ?_]
  · rfl
  · obtain ⟨text, _, rfl⟩ := List.mem_map.mp member
    exact fun same => differs (of_decide_eq_true same)

/-- Lines of the two streams are as many as those of the one and the other. -/
theorem OutputOnly.length {lines : List Line} (only : OutputOnly lines) :
    lines.length = (onStream "stdout" lines).length + (onStream "stderr" lines).length := by
  induction lines with
  | nil => rfl
  | cons line lines shorter =>
      have rest := shorter fun other member => only other (List.mem_cons_of_mem _ member)
      have kind := only line List.mem_cons_self
      simp only [outputStreams, List.mem_cons, List.not_mem_nil, or_false] at kind
      unfold onStream at rest ⊢
      rcases kind with out | err
      · simp [out, rest]
        omega
      · simp [err, rest]
        omega

theorem OutputOnly.append {first second : List Line} (one : OutputOnly first) (two : OutputOnly second) :
    OutputOnly (first ++ second) := fun line member => (List.mem_append.mp member).elim (one line) (two line)

/-- Lines that are cut where as many of one stream come first as are stored of it continue what is stored of
each stream. -/
theorem onStream_continues {stored merged : List Line} (storedOnly : OutputOnly stored)
    (mergedOnly : OutputOnly merged) {whole : String → List String}
    (kept : ∀ stream ∈ outputStreams, onStream stream stored <+: whole stream)
    (read : ∀ stream ∈ outputStreams, onStream stream merged <+: whole stream)
    (passed : stored.length ≤ merged.length)
    (level : (onStream "stdout" (merged.take stored.length)).length = (onStream "stdout" stored).length) :
    ∀ stream ∈ outputStreams, onStream stream (stored ++ merged.drop stored.length) = onStream stream merged := by
  have headOnly : OutputOnly (merged.take stored.length) := fun line member =>
    mergedOnly line (List.mem_of_mem_take member)
  have errors : (onStream "stderr" (merged.take stored.length)).length = (onStream "stderr" stored).length := by
    have one := headOnly.length
    have two := storedOnly.length
    rw [List.length_take_of_le passed] at one
    omega
  intro stream member
  have same : (onStream stream (merged.take stored.length)).length = (onStream stream stored).length := by
    simp only [outputStreams, List.mem_cons, List.not_mem_nil, or_false] at member
    rcases member with rfl | rfl
    · exact level
    · exact errors
  have split : onStream stream merged =
      onStream stream (merged.take stored.length) ++ onStream stream (merged.drop stored.length) := by
    rw [← onStream_append, List.take_append_drop]
  have head : onStream stream stored = onStream stream (merged.take stored.length) := by
    have begins : onStream stream (merged.take stored.length) <+: whole stream :=
      List.IsPrefix.trans ⟨_, split.symm⟩ (read stream member)
    rcases List.prefix_or_prefix_of_prefix (kept stream member) begins with shorter | longer
    · exact shorter.eq_of_length same.symm
    · exact (longer.eq_of_length same).symm
  rw [onStream_append, head, ← split]

/-! ### Pages of a stream -/

/-- What is assumed of the log service: a stream only grows, and a read returns a page of it, in order, from
the place its token stands for, with the token of the place after the page. -/
structure Paged (weather : Weather) (content : Nat → String → List String) (place : Option String → Nat) :
    Prop where
  grows : ∀ name {first later}, first ≤ later → content first name <+: content later name
  head : place none = 0
  page : ∀ asked name token messages next, weather.logEvents asked name token = .ok (messages, next) →
    messages <+: (content asked name).drop (place token) ∧
      ∃ mark, next = some mark ∧ place (some mark) = place token + messages.length

/-- The page a read of a stream gets, and the token that comes with it: nothing of a stream that is not there
yet, and no page where the read fails. -/
def Weather.page (weather : Weather) (requests : Nat) (name : String) (token : Option String) :
    Option (List String × Option String) :=
  let missing := fun code => if code = "ResourceNotFoundException" then some ([], none) else none
  match weather.fate requests with
  | .answered =>
      match weather.logEvents (requests + 1) name token with
      | .ok (messages, next) => some (messages.map Ec2Backend.chomped, next)
      | .error code => missing code
  | .refused code => missing code
  | .unanswered => none

/-- What a process has read of a stream, and where it was left. -/
def Memory.token (memory : Memory) (name : String) : Option String := memory.tokens.lookup name

/-- What a process remembers of an instance's output is what it was. -/
structure SameOutput (name command handle : String) (before after : Ec2) : Prop where
  lines : Memory.linesOf handle (after.memory name) = Memory.linesOf handle (before.memory name)
  tokens : ∀ stream, (after.memory name).token (commandLogStream command handle stream) =
    (before.memory name).token (commandLogStream command handle stream)
  later : before.requests ≤ after.requests

variable {backend : Ec2Backend} {weather : Weather} {handle command : String}

theorem SameOutput.refl (name command handle : String) (account : Ec2) :
    SameOutput name command handle account account := ⟨rfl, fun _ => rfl, le_rfl⟩

theorem SameOutput.trans {name : String} {first second third : Ec2} (one : SameOutput name command handle first second)
    (two : SameOutput name command handle second third) : SameOutput name command handle first third :=
  ⟨two.lines.trans one.lines, fun stream => (two.tokens stream).trans (one.tokens stream),
    one.later.trans two.later⟩

/-- A request that is not for a page of output. -/
theorem SameOutput.request {α : Type} {name : String} {before account : Ec2} {label : Request}
    {effect : Ec2 → Ec2} {reply : Ec2 → Except String α} {note : Except String α → Ec2 → Ec2}
    (same : SameOutput name command handle before account)
    (affects : ∀ here, SameOutput name command handle here (effect here))
    (notes : ∀ answer here, SameOutput name command handle here (note answer here)) :
    SameOutput name command handle before ((Ec2.request weather label effect reply note).whole account).2 := by
  have arrived : SameOutput name command handle account (account.arrived weather) := ⟨rfl, fun _ => rfl, Nat.le_succ _⟩
  unfold Ec2.request
  simp only [Program.whole]
  split
  · exact same.trans (arrived.trans ((affects _).trans (notes _ _)))
  · exact same.trans arrived
  · exact same.trans (arrived.trans (affects _))

theorem sameOutput_instances {before account : Ec2} (same : SameOutput backend.name command handle before account) :
    SameOutput backend.name command handle before ((backend.instances weather).whole account).2 := by
  unfold instances
  refine Program.whole_bind_keeps (show SameOutput backend.name command handle before { account with readings := _ } from
    ⟨same.lines, same.tokens, same.later⟩) fun moment next same => ?_
  refine Program.whole_bind_keeps (show SameOutput backend.name command handle before _ from same)
    fun cache next same => ?_
  split
  · exact same
  · refine Program.whole_bind_keeps (same.request (fun here => .refl _ _ _ here) fun answer here => ?_)
      fun answer next same => ?_
    · unfold caching
      split
      · refine ⟨?_, fun stream => ?_, le_rfl⟩
        · unfold Memory.linesOf Ec2.remember
          simp only [Function.update_self]
        · unfold Memory.token Ec2.remember
          simp only [Function.update_self]
      · exact .refl _ _ _ here
    · split <;> exact same

theorem sameOutput_commandId {before account : Ec2} (same : SameOutput backend.name command handle before account) :
    SameOutput backend.name command handle before ((backend.commandId weather handle).whole account).2 := by
  unfold commandId
  refine Program.whole_bind_keeps ?_ fun found next same => same
  unfold instanceOf
  refine Program.whole_bind_keeps (sameOutput_instances same) fun found next same => ?_
  split
  · exact same
  · unfold describeOne
    refine Program.whole_bind_keeps (same.request (fun here => .refl _ _ _ here) fun _ here => .refl _ _ _ here)
      fun answer next same => ?_
    split
    · exact same
    · split <;> exact same

/-- A read of a stream: the page, with the place after it kept, or an error. -/
theorem whole_readStream (command stream : String) (account : Ec2) :
    ∃ error, (backend.readStream weather command handle stream).whole account =
      match weather.page account.requests (commandLogStream command handle stream)
          ((account.memory backend.name).token (commandLogStream command handle stream)) with
      | some (page, next) =>
          (.ok (page.map fun text => (stream, text)),
            backend.leaving (commandLogStream command handle stream) (.ok ([], next)) (account.arrived weather))
      | none => (.error error, account.arrived weather) := by
  unfold readStream Weather.page Memory.token Ec2.request
  simp only [Ec2.recollect, Program.read, Program.quietly, bind, Program.bind, Program.whole, pure]
  cases fated : weather.fate account.requests with
  | answered =>
      simp only
      rw [show (account.arrived weather).requests = account.requests + 1 from rfl]
      cases answered : weather.logEvents (account.requests + 1) (commandLogStream command handle stream)
          ((account.memory backend.name).tokens.lookup (commandLogStream command handle stream)) with
      | ok answer =>
          refine ⟨"", ?_⟩
          obtain ⟨messages, next⟩ := answer
          simp only [Program.whole, List.map_map, Function.comp_def, id]
          cases next <;> rfl
      | error code =>
          by_cases missing : code = "ResourceNotFoundException"
          · subst missing
            exact ⟨"", rfl⟩
          · simp only [if_neg missing]
            exact ⟨_, rfl⟩
  | refused code =>
      by_cases missing : code = "ResourceNotFoundException"
      · subst missing
        exact ⟨"", rfl⟩
      · simp only [if_neg missing]
        exact ⟨_, rfl⟩
  | unanswered => exact ⟨_, rfl⟩

/-- A page is what a stream goes on with from its place, and the place moves over it. -/
theorem Paged.page_spec {content : Nat → String → List String} {place : Option String → Nat}
    (paged : Paged weather content place) {requests : Nat} {name : String} {token next : Option String}
    {page : List String} (read : weather.page requests name token = some (page, next)) :
    page <+: ((content (requests + 1) name).map Ec2Backend.chomped).drop (place token) ∧
      place (next.or token) = place token + page.length := by
  have missing : ∀ code : String,
      (if code = "ResourceNotFoundException" then some (([], none) : List String × Option String) else none) =
        some (page, next) → page <+: ((content (requests + 1) name).map Ec2Backend.chomped).drop (place token) ∧
          place (next.or token) = place token + page.length := by
    intro code found
    split at found
    · cases found
      exact ⟨List.nil_prefix, rfl⟩
    · cases found
  unfold Weather.page at read
  simp only at read
  split at read
  · split at read
    · next messages mark answered =>
      cases read
      obtain ⟨begins, later, rfl, moved⟩ := paged.page _ _ _ _ _ answered
      refine ⟨?_, ?_⟩
      · rw [← List.map_drop]
        exact begins.map Ec2Backend.chomped
      · rw [List.length_map]
        exact moved
    · exact missing _ read
  · exact missing _ read
  · cases read

/-! ### What a process holds -/

/-- What a command has printed on a stream by the time of a request. -/
def printed (content : Nat → String → List String) (command handle : String) (requests : Nat)
    (stream : String) : List String := (content requests (commandLogStream command handle stream)).map Ec2Backend.chomped

/-- Where a process is in a stream. -/
def Ec2Backend.placeIn (backend : Ec2Backend) (place : Option String → Nat) (command handle : String)
    (account : Ec2) (stream : String) : Nat :=
  place ((account.memory backend.name).token (commandLogStream command handle stream))

/-- The output a process holds. -/
def Ec2Backend.held (backend : Ec2Backend) (handle : String) (account : Ec2) : List Line :=
  Memory.linesOf handle (account.memory backend.name)

/-- A process holds of each stream what comes before its place. -/
structure Buffered (backend : Ec2Backend) (command handle : String) (content : Nat → String → List String)
    (place : Option String → Nat) (account : Ec2) : Prop where
  only : OutputOnly (backend.held handle account)
  read : ∀ stream ∈ outputStreams, onStream stream (backend.held handle account) =
    (printed content command handle account.requests stream).take
      (backend.placeIn place command handle account stream)
  inside : ∀ stream ∈ outputStreams, backend.placeIn place command handle account stream ≤
    (printed content command handle account.requests stream).length

section

variable {content : Nat → String → List String} {place : Option String → Nat} {account : Ec2}

theorem Paged.printed_grows (paged : Paged weather content place) {first later : Nat} (onward : first ≤ later)
    (stream : String) :
    printed content command handle first stream <+: printed content command handle later stream :=
  (paged.grows _ onward).map Ec2Backend.chomped

/-- Streams that grow leave what was read of them. -/
theorem Buffered.same (buffered : Buffered backend command handle content place account)
    (paged : Paged weather content place) {later : Ec2} (same : SameOutput backend.name command handle account later) :
    Buffered backend command handle content place later := by
  have held : backend.held handle later = backend.held handle account := same.lines
  have places : ∀ stream, backend.placeIn place command handle later stream =
      backend.placeIn place command handle account stream := by
    intro stream
    unfold Ec2Backend.placeIn
    rw [same.tokens]
  refine ⟨held ▸ buffered.only, fun stream member => ?_, fun stream member => ?_⟩
  · obtain ⟨more, whole⟩ := paged.printed_grows same.later stream
    rw [held, places, buffered.read stream member, ← whole,
      List.take_append_of_le_length (buffered.inside stream member)]
  · rw [places]
    exact (buffered.inside stream member).trans (paged.printed_grows same.later stream).length_le

/-- A page that is read and kept. -/
def Ec2Backend.keeping (backend : Ec2Backend) (weather : Weather) (command handle stream : String)
    (page : List String) (next : Option String) (account : Ec2) : Ec2 :=
  ((backend.keepLines handle (page.map fun text => (stream, text))).whole
    (backend.leaving (commandLogStream command handle stream) (.ok ([], next)) (account.arrived weather))).2

/-- A page of a stream is read and kept, or the read fails. -/
theorem whole_readInto (backend : Ec2Backend) (weather : Weather) {α : Type} (command handle stream : String) (rest : Ec2.Aws α) (account : Ec2) :
    ∃ error, Program.whole (do
        let printed ← backend.readStream weather command handle stream
        backend.keepLines handle printed
        rest) account =
      match weather.page account.requests (commandLogStream command handle stream)
          ((account.memory backend.name).token (commandLogStream command handle stream)) with
      | some (page, next) => rest.whole (backend.keeping weather command handle stream page next account)
      | none => (.error error, account.arrived weather) := by
  obtain ⟨error, read⟩ := whole_readStream command stream account
  refine ⟨error, ?_⟩
  rw [Program.whole_bind, read]
  cases weather.page account.requests (commandLogStream command handle stream)
      ((account.memory backend.name).token (commandLogStream command handle stream)) <;> rfl

theorem commandLogStream_inj {first second : String} :
    commandLogStream command handle first = commandLogStream command handle second ↔ first = second := by
  refine ⟨fun same => ?_, congrArg _⟩
  have letters := congrArg String.toList same
  unfold commandLogStream at letters
  simp only [String.toList_append, List.append_cancel_left_eq] at letters
  exact String.toList_inj.mp letters

theorem keeping_memory (stream : String) (page : List String) (next : Option String) (account : Ec2) :
    (backend.keeping weather command handle stream page next account).memory backend.name =
      let left := (backend.leaving (commandLogStream command handle stream) (.ok ([], next))
        (account.arrived weather)).memory backend.name
      { left with
        lines := (handle, Memory.linesOf handle left ++ page.map fun text => (stream, text)) ::
          left.lines.filter fun entry => entry.1 ≠ handle } :=
  Function.update_self ..

theorem keeping_held (stream : String) (page : List String) (next : Option String) (account : Ec2) :
    backend.held handle (backend.keeping weather command handle stream page next account) =
      backend.held handle account ++ page.map fun text => (stream, text) := by
  have kept : ∀ (lines : List Line) (others : List (String × List Line)),
      ((handle, lines) :: others).lookup handle = some lines := by
    intro lines others
    rw [List.lookup_cons, beq_self_eq_true]
  unfold Ec2Backend.held
  rw [keeping_memory]
  unfold Memory.linesOf
  simp only [kept, Option.getD_some]
  cases next with
  | none => rfl
  | some token =>
      unfold leaving Ec2.remember
      simp only [Function.update_self]
      rfl

theorem keeping_requests (stream : String) (page : List String) (next : Option String) (account : Ec2) :
    (backend.keeping weather command handle stream page next account).requests = account.requests + 1 := by
  cases next <;> rfl

theorem keeping_token (backend : Ec2Backend) (weather : Weather) (command handle stream other : String) (page : List String) (next : Option String) (account : Ec2) :
    ((backend.keeping weather command handle stream page next account).memory backend.name).token
        (commandLogStream command handle other) =
      if other = stream then
        next.or ((account.memory backend.name).token (commandLogStream command handle stream))
      else (account.memory backend.name).token (commandLogStream command handle other) := by
  rw [keeping_memory]
  unfold Memory.token
  cases next with
  | none =>
      split
      · next same =>
        rw [same]
        rfl
      · rfl
  | some token =>
      unfold leaving Ec2.remember
      simp only [Function.update_self]
      rw [Ec2.lookup_withTag]
      simp only [commandLogStream_inj]
      split <;> rfl

/-- A page that is read and kept goes on with its stream. -/
theorem Buffered.keeping (buffered : Buffered backend command handle content place account)
    (paged : Paged weather content place) {stream : String} (put : stream ∈ outputStreams) {page : List String}
    {next : Option String}
    (read : weather.page account.requests (commandLogStream command handle stream)
      ((account.memory backend.name).token (commandLogStream command handle stream)) = some (page, next)) :
    Buffered backend command handle content place
      (backend.keeping weather command handle stream page next account) := by
  obtain ⟨begins, moved⟩ := paged.page_spec read
  have arrived : Buffered backend command handle content place (account.arrived weather) :=
    buffered.same paged ⟨rfl, fun _ => rfl, Nat.le_succ _⟩
  refine ⟨?_, fun other member => ?_, fun other member => ?_⟩
  · rw [keeping_held]
    refine buffered.only.append fun line member => ?_
    obtain ⟨text, _, rfl⟩ := List.mem_map.mp member
    exact put
  · unfold Ec2Backend.placeIn
    rw [keeping_held, keeping_token, onStream_append, keeping_requests]
    have before : onStream other (backend.held handle account) =
        (printed content command handle (account.requests + 1) other).take
          (backend.placeIn place command handle account other) := arrived.read other member
    split
    · next same =>
      subst same
      rw [onStream_same, before, moved, List.take_add]
      exact congrArg _ (List.prefix_iff_eq_take.mp begins)
    · next differs =>
      rw [onStream_other (Ne.symm differs), List.append_nil]
      exact before
  · unfold Ec2Backend.placeIn
    rw [keeping_token, keeping_requests]
    split
    · next same =>
      subst same
      have inside : place ((account.memory backend.name).token (commandLogStream command handle other)) ≤
          (printed content command handle (account.requests + 1) other).length := arrived.inside other member
      have room := begins.length_le
      rw [List.length_drop] at room
      rw [moved]
      exact (Nat.le_sub_iff_add_le' inside).mp room
    · exact arrived.inside other member

/-- What a process would hold of an instance's output after a poll: what it holds, and a page of each stream;
nothing where the command is not known, or a read fails. -/
def Ec2Backend.rebuilt (backend : Ec2Backend) (weather : Weather) (handle : String) (account : Ec2) :
    Option (List Line) :=
  let (answer, known) := (backend.commandId weather handle).whole account
  match answer with
  | .ok (some command) => do
      let memory := known.memory backend.name
      let out := commandLogStream command handle "stdout"
      let err := commandLogStream command handle "stderr"
      let (output, _) ← weather.page known.requests out (memory.token out)
      let (errors, _) ← weather.page (known.requests + 1) err (memory.token err)
      some (backend.held handle account ++ (output.map fun text => ("stdout", text)) ++
        errors.map fun text => ("stderr", text))
  | _ => none

/-- What a fetch returns, and what the process holds after it. -/
theorem whole_fetchLogs (buffered : Buffered backend command handle content place account)
    (paged : Paged weather content place)
    (steady : ∀ other, ((backend.commandId weather handle).whole account).1 = .ok (some other) →
      other = command) (after : Nat) :
    let fetched := (backend.fetchLogs weather handle after).whole account
    Buffered backend command handle content place fetched.2 ∧ account.requests ≤ fetched.2.requests ∧
      match backend.rebuilt weather handle account with
      | some merged => fetched.1 = .ok (merged.drop after) ∧ backend.held handle fetched.2 = merged
      | none => ∀ lines, fetched.1 = .ok lines → lines = [] := by
  have known : SameOutput backend.name command handle account
      ((backend.commandId weather handle).whole account).2 := sameOutput_commandId (.refl _ _ _ account)
  have held : backend.held handle ((backend.commandId weather handle).whole account).2 =
    backend.held handle account := known.lines
  have there := buffered.same paged known
  have onward := known.later
  unfold fetchLogs Ec2Backend.rebuilt
  simp only
  rw [Program.whole_bind]
  generalize (backend.commandId weather handle).whole account = looked at held there onward steady
  obtain ⟨answer, found⟩ := looked
  simp only at held there onward steady
  cases answer with
  | error detail => exact ⟨there, onward, fun lines => nofun⟩
  | ok id =>
      cases id with
      | none => exact ⟨there, onward, fun lines same => (Except.ok.inj same).symm⟩
      | some id =>
          obtain rfl := (steady id rfl).symm
          have arrived : ∀ account : Ec2, SameOutput backend.name command handle account (account.arrived weather) :=
            fun account => ⟨rfl, fun _ => rfl, Nat.le_succ _⟩
          obtain ⟨outError, output⟩ := whole_readInto backend weather command handle "stdout"
            (do
              let complained ← backend.readStream weather command handle "stderr"
              backend.keepLines handle complained
              let lines ← Ec2.recollect backend.name (Memory.linesOf handle)
              pure (lines.drop after)) found
          simp only [output]
          cases outPage : weather.page found.requests (commandLogStream command handle "stdout")
              ((found.memory backend.name).token (commandLogStream command handle "stdout")) with
          | none => exact ⟨there.same paged (arrived found), onward.trans (Nat.le_succ _), fun lines => nofun⟩
          | some outRead =>
              obtain ⟨out, outNext⟩ := outRead
              have first := there.keeping paged (List.mem_cons_self) outPage
              obtain ⟨errError, errors⟩ := whole_readInto backend weather command handle "stderr"
                (do
                  let lines ← Ec2.recollect backend.name (Memory.linesOf handle)
                  pure (lines.drop after)) (backend.keeping weather command handle "stdout" out outNext found)
              have token := keeping_token backend weather command handle "stdout" "stderr" out outNext found
              rw [if_neg (by decide)] at token
              rw [keeping_requests, token] at errors
              simp only [errors]
              cases errPage : weather.page (found.requests + 1) (commandLogStream command handle "stderr")
                  ((found.memory backend.name).token (commandLogStream command handle "stderr")) with
              | none =>
                  refine ⟨first.same paged (arrived _), ?_, fun lines => nofun⟩
                  show account.requests ≤ (backend.keeping weather command handle "stdout" out outNext found).requests + 1
                  rw [keeping_requests]
                  omega
              | some errRead =>
                  obtain ⟨err, errNext⟩ := errRead
                  have second := first.keeping paged (List.mem_cons_of_mem _ List.mem_cons_self)
                    (by rw [keeping_requests, token]; exact errPage)
                  have merged : backend.held handle (backend.keeping weather command handle "stderr" err errNext
                      (backend.keeping weather command handle "stdout" out outNext found)) =
                        backend.held handle account ++ (out.map fun text => ("stdout", text)) ++
                          err.map fun text => ("stderr", text) := by
                    rw [keeping_held, keeping_held, held]
                  refine ⟨second, ?_, ?_, merged⟩
                  · show account.requests ≤ (backend.keeping weather command handle "stderr" err errNext _).requests
                    rw [keeping_requests, keeping_requests]
                    omega
                  · exact congrArg (fun lines => Except.ok (List.drop after lines)) merged

end

/-! ### What a poll stores -/

section

variable {γ : Type} {world : World γ} {id : JobId} {row copy : Job}

/-- A note of the broker's leaves the rows of jobs and their output. -/
theorem appendLog_output (world : World γ) (job : JobId) (line : String) (id : JobId) :
    ((appendLog job line).whole world).2.db.output id = world.db.output id ∧
      ((appendLog job line).whole world).2.cloud = world.cloud := by
  refine ⟨?_, whole_appendLog_cloud job line world⟩
  have logs := (LogWriter.apply_logs world (.appendLog job "broker" line) id).1
  have ours : ∀ line' ∈ (LogWriter.appendLog job "broker" line).lines world, line'.1 = "broker" := by
    intro other member
    rcases withinLogBudget_stream member with broker | ⟨whole, listed, rfl⟩
    · exact broker
    · rw [List.mem_singleton.mp listed]
      unfold clipLine
      split <;> rfl
  show own (((LogWriter.appendLog job "broker" line).apply world).db.logOf id) = own (world.db.logOf id)
  rw [logs, own_append]
  split
  · rw [own_ours ours, List.append_nil]
  · exact List.append_nil _

theorem appendLog_row (job : JobId) (line : String) (id : JobId) :
    ((appendLog job line).whole world).2.db.jobs.find id = world.db.jobs.find id := by
  unfold appendLog
  rw [whole_settings, whole_query]
  simp only
  split
  · rfl
  · rw [whole_now, whole_executing, touch_apply]
    cases touched : world.ticked.db.touchJob job (.note _) (world.clock world.asked) with
    | error error => rfl
    | ok db =>
        rw [Db.touchJob_eq touched]
        show (world.ticked.db.jobs.modify job _ (Touch.onRow_id _ _)).find id = _
        rw [Table.find_modify]
        split
        · exact congrFun Option.map_id _
        · rfl

theorem OutputOnly.known {lines : List Line} (only : OutputOnly lines) :
    ∀ line ∈ lines, line.1 ∈ logStreams := by
  have known : ∀ stream ∈ outputStreams, stream ∈ logStreams := by decide
  exact fun line member => known line.1 (only line member)

/-- Output that fits is stored as it is. -/
theorem appendBackendLogs_fits (there : (world.db.jobs.find id).isSome = true) (mine : copy.jobId = id)
    {lines : List Line} (only : OutputOnly lines) (fits : Fits world id lines) :
    ((appendBackendLogs copy lines).whole world).2.db.output id = world.db.output id ++ lines := by
  have allOwn : own lines = lines := by
    refine List.filter_eq_self.mpr fun line member => decide_eq_true fun broker => ?_
    exact absurd (broker ▸ only line member) (by decide)
  subst mine
  have logs := (LogWriter.apply_logs world (.appendBackendLogs copy lines) copy.jobId).1
  have kept : (LogWriter.appendBackendLogs copy lines).lines world = lines := fits.kept
  rw [kept, if_pos ⟨rfl, there, only.known⟩] at logs
  show own (((LogWriter.appendBackendLogs copy lines).apply world).db.logOf copy.jobId) = _
  rw [logs, own_append, allOwn]
  rfl

end

/-! ### Runs -/

/-- The account of a world, as the process that runs has it. -/
def World.account (world : World (Fleet δ)) : Ec2 := world.cloud.aws.now

/-- A poll keeps to the order that is stored: where it returns lines, as many lines of standard output come
before the cursor as are stored, and the lines after it fit into the log. -/
def KeepsOrder (backend : Ec2Backend) (weather : Weather) (handle : String) (world : World (Fleet δ)) (row : Job) :
    Prop :=
  ∀ merged ∈ backend.rebuilt weather handle world.account, row.logsFetched < merged.length →
    (onStream "stdout" (merged.take row.logsFetched)).length =
        (onStream "stdout" (world.db.output row.jobId)).length ∧
      Fits world row.jobId (merged.drop row.logsFetched)

instance (backend : Ec2Backend) (weather : Weather) (handle : String) (world : World (Fleet δ)) (row : Job) :
    Decidable (KeepsOrder backend weather handle world row) :=
  inferInstanceAs (Decidable (∀ merged ∈ backend.rebuilt weather handle world.account, _))

/-- One thing that happens: the broker reads the output of the job's machine, its process ends, at any request,
and another starts, or something else is done that leaves the job's output, the cursor in its row and what the
process remembers of its machine's output as they are. -/
inductive LogStep (backend : Ec2Backend) (weather : Weather) (id : JobId) (command handle : String)
    (meets : World (Fleet δ) → Job → Prop) : World (Fleet δ) → World (Fleet δ) → Prop
  | drain {world : World (Fleet δ)} (row copy : Job) (found : world.db.jobs.find id = some row)
      (mine : copy.jobId = id) (there : copy.backendHandle = some handle)
      (cursor : copy.logsFetched = row.logsFetched)
      (steady : ∀ other, ((backend.commandId weather handle).whole world.account).1 = .ok (some other) →
        other = command)
      (met : meets world row) :
      LogStep backend weather id command handle meets world
        ((drainLogs copy (backend.served weather)).whole world).2
  | restart {world : World (Fleet δ)} (account : Ec2) (later : world.account.requests ≤ account.requests) :
      LogStep backend weather id command handle meets world (Plant.restarted account world)
  | elsewhere {world next : World (Fleet δ)}
      (same : SameOutput backend.name command handle world.account next.account)
      (output : next.db.output id = world.db.output id)
      (row : (next.db.jobs.find id).map (fun row => row.logsFetched) =
        (world.db.jobs.find id).map fun row => row.logsFetched) :
      LogStep backend weather id command handle meets world next

/-- A job whose machine nothing was read of: its cursor is at zero, it has no output, and the process
remembers none. -/
structure Unread (backend : Ec2Backend) (id : JobId) (command handle : String) (world : World (Fleet δ)) :
    Prop where
  row : (world.db.jobs.find id).map (fun row => row.logsFetched) = some 0
  output : world.db.output id = []
  held : backend.held handle world.account = []
  tokens : ∀ stream ∈ outputStreams,
    (world.account.memory backend.name).token (commandLogStream command handle stream) = none

/-- All of both streams was read: the process is at their ends, and the cursor is past what it holds. -/
structure ReadOut (backend : Ec2Backend) (content : Nat → String → List String)
    (place : Option String → Nat) (id : JobId) (command handle : String) (world : World (Fleet δ)) : Prop where
  ends : ∀ stream ∈ outputStreams, (printed content command handle world.account.requests stream).length ≤
    backend.placeIn place command handle world.account stream
  passed : ∀ row ∈ world.db.jobs.find id, (backend.held handle world.account).length ≤ row.logsFetched

/-- What is kept along a run: the process holds what it read of each stream, what is stored of each is what
it begins with, and the cursor counts what is stored. -/
structure Following (backend : Ec2Backend) (content : Nat → String → List String)
    (place : Option String → Nat) (id : JobId) (command handle : String) (world : World (Fleet δ)) : Prop where
  buffered : Buffered backend command handle content place world.account
  row : (world.db.jobs.find id).map (fun row => row.logsFetched) = some (world.db.output id).length
  only : OutputOnly (world.db.output id)
  stored : ∀ stream ∈ outputStreams, onStream stream (world.db.output id) <+:
    printed content command handle world.account.requests stream

section

variable {content : Nat → String → List String} {place : Option String → Nat} {id : JobId}
  {world next : World (Fleet δ)}

theorem Unread.following (unread : Unread backend id command handle world) (paged : Paged weather content place) :
    Following backend content place id command handle world := by
  refine ⟨⟨?_, fun stream member => ?_, fun stream member => ?_⟩, ?_, ?_, fun stream member => ?_⟩
  · rw [unread.held]
    exact fun line member => absurd member List.not_mem_nil
  · unfold Ec2Backend.placeIn
    rw [unread.held, unread.tokens stream member, paged.head, List.take_zero]
    rfl
  · unfold Ec2Backend.placeIn
    rw [unread.tokens stream member, paged.head]
    exact Nat.zero_le _
  · rw [unread.row, unread.output]
    rfl
  · rw [unread.output]
    exact fun line member => absurd member List.not_mem_nil
  · rw [unread.output]
    exact List.nil_prefix

/-- A process that starts holds nothing, and begins at the heads of the streams. -/
theorem buffered_forget (paged : Paged weather content place) (account : Ec2) :
    Buffered backend command handle content place account.forget := by
  refine ⟨fun line member => absurd member List.not_mem_nil, fun stream member => ?_, fun stream member => ?_⟩
  · show _ = (printed content command handle account.forget.requests stream).take (place none)
    rw [paged.head, List.take_zero]
    rfl
  · show place none ≤ _
    rw [paged.head]
    exact Nat.zero_le _

/-- What leaves the job's output and its cursor keeps what is kept, where what the process holds is of the
streams. -/
theorem Following.moved (following : Following backend content place id command handle world)
    (paged : Paged weather content place)
    (buffered : Buffered backend command handle content place next.account)
    (later : world.account.requests ≤ next.account.requests) (output : next.db.output id = world.db.output id)
    (row : (next.db.jobs.find id).map (fun row => row.logsFetched) =
      (world.db.jobs.find id).map fun row => row.logsFetched) :
    Following backend content place id command handle next where
  buffered := buffered
  row := by rw [row, output, following.row]
  only := output ▸ following.only
  stored stream member := by
    rw [output]
    exact (following.stored stream member).trans (paged.printed_grows later stream)

theorem Following.count (following : Following backend content place id command handle world) {row : Job}
    (found : world.db.jobs.find id = some row) : row.logsFetched = (world.db.output id).length := by
  have counted := following.row
  rw [found] at counted
  exact Option.some.inj counted

/-- What is stored of what the process holds past the cursor continues each stream, where as many lines of
standard output come before the cursor as are stored. -/
theorem Following.store (following : Following backend content place id command handle world) {row copy : Job}
    (found : world.db.jobs.find id = some row) (mine : copy.jobId = id)
    (cursor : copy.logsFetched = row.logsFetched)
    (passed : row.logsFetched ≤ (backend.held handle world.account).length)
    (level : (onStream "stdout" ((backend.held handle world.account).take row.logsFetched)).length =
      (onStream "stdout" (world.db.output id)).length)
    (fits : Fits world id ((backend.held handle world.account).drop row.logsFetched)) :
    Following backend content place id command handle
      ((appendBackendLogs copy ((backend.held handle world.account).drop row.logsFetched)).whole world).2 := by
  have heldOnly := following.buffered.only
  have dropOnly : OutputOnly ((backend.held handle world.account).drop row.logsFetched) := fun line member =>
    heldOnly line (List.mem_of_mem_drop member)
  have output := appendBackendLogs_fits (Option.isSome_of_mem found) mine dropOnly fits
  obtain ⟨cloud, last, after, _, moved⟩ := appendBackendLogs_row found mine cursor dropOnly.known
  set next := ((appendBackendLogs copy ((backend.held handle world.account).drop row.logsFetched)).whole world).2
  have same : next.account = world.account := congrArg (fun cloud : Fleet δ => cloud.aws.now) cloud
  have count := following.count found
  have holding : ∀ stream ∈ outputStreams, onStream stream (backend.held handle world.account) <+:
      printed content command handle world.account.requests stream := by
    intro stream member
    rw [following.buffered.read stream member]
    exact List.take_prefix _ _
  refine ⟨same ▸ following.buffered, ?_, ?_, fun stream member => ?_⟩
  · rw [after, output, List.length_append, ← count]
    exact congrArg some moved
  · rw [output]
    exact following.only.append dropOnly
  · rw [count] at passed level
    rw [output, same, count, onStream_continues following.only heldOnly following.stored holding passed level
      stream member]
    exact holding stream member

/-- Once all was read, all is stored. -/
theorem Following.whole (following : Following backend content place id command handle world)
    (readOut : ReadOut backend content place id command handle world) :
    ∀ stream ∈ outputStreams, onStream stream (world.db.output id) =
      printed content command handle world.account.requests stream := by
  have held : ∀ stream ∈ outputStreams, onStream stream (backend.held handle world.account) =
      printed content command handle world.account.requests stream := fun stream member =>
    (following.buffered.read stream member).trans (List.take_of_length_le (readOut.ends stream member))
  obtain ⟨row, found, _⟩ := Option.map_eq_some_iff.mp following.row
  have enough := readOut.passed row found
  rw [following.count found, following.only.length, following.buffered.only.length,
    held "stdout" List.mem_cons_self, held "stderr" (List.mem_cons_of_mem _ List.mem_cons_self)] at enough
  have out := (following.stored "stdout" List.mem_cons_self).length_le
  have err := (following.stored "stderr" (List.mem_cons_of_mem _ List.mem_cons_self)).length_le
  intro stream member
  refine (following.stored stream member).eq_of_length ?_
  simp only [outputStreams, List.mem_cons, List.not_mem_nil, or_false] at member
  rcases member with rfl | rfl <;> omega

/-- What a poll leaves, where it keeps to the order that is stored. -/
theorem Following.drain (following : Following backend content place id command handle world)
    (paged : Paged weather content place) {row copy : Job} (found : world.db.jobs.find id = some row)
    (mine : copy.jobId = id) (there : copy.backendHandle = some handle)
    (cursor : copy.logsFetched = row.logsFetched)
    (steady : ∀ other, ((backend.commandId weather handle).whole world.account).1 = .ok (some other) →
      other = command) (keepsOrder : KeepsOrder backend weather handle world row) :
    Following backend content place id command handle
      ((drainLogs copy (backend.served weather)).whole world).2 := by
  obtain ⟨buffered, later, read⟩ := whole_fetchLogs following.buffered paged steady row.logsFetched
  unfold drainLogs
  rw [whole_external]
  have call : (backend.served weather).fetchLogs (copy.backendHandle.getD "") copy.logsFetched world.cloud =
      Fleet.serve (backend.fetchLogs weather handle row.logsFetched) world.cloud := by
    rw [there, cursor]
    rfl
  rw [call]
  set called := world.called (Fleet.serve (backend.fetchLogs weather handle row.logsFetched) world.cloud).2
    with calledIs
  have account : called.account = ((backend.fetchLogs weather handle row.logsFetched).whole world.account).2 := rfl
  have answer : (Fleet.serve (backend.fetchLogs weather handle row.logsFetched) world.cloud).1 =
      ((backend.fetchLogs weather handle row.logsFetched).whole world.account).1 := rfl
  rw [answer]
  rw [← account] at buffered later
  cases fetched : ((backend.fetchLogs weather handle row.logsFetched).whole world.account).1 with
  | error detail =>
      refine Program.whole_bind_keeps ?_ fun _ _ kept => kept
      obtain ⟨output, cloud⟩ := appendLog_output called copy.jobId s!"could not read logs: {detail}" id
      have same : ((appendLog copy.jobId s!"could not read logs: {detail}").whole called).2.account =
        called.account := congrArg (fun cloud : Fleet δ => cloud.aws.now) cloud
      refine following.moved paged (same ▸ buffered) (same ▸ later) output ?_
      rw [appendLog_row]
      rfl
  | ok lines =>
      simp only
      split
      · exact following.moved paged buffered later rfl rfl
      · next new =>
        refine Program.whole_bind_keeps ?_ fun _ _ kept => kept
        rw [fetched] at read
        cases merged : backend.rebuilt weather handle world.account with
        | none =>
            rw [merged] at read
            exact absurd (List.isEmpty_iff.mpr (read lines rfl)) new
        | some held =>
            rw [merged] at read
            obtain ⟨returned, holds⟩ := read
            cases returned
            replace holds : backend.held handle called.account = held := holds
            subst holds
            have passed : row.logsFetched < (backend.held handle called.account).length := by
              by_contra short
              exact new (List.isEmpty_iff.mpr (List.drop_of_length_le (not_lt.mp short)))
            obtain ⟨level, fits⟩ := keepsOrder _ merged passed
            rw [Table.find_key found] at level fits
            exact (following.moved paged buffered later rfl rfl).store found mine cursor passed.le level fits

/-- Along a run whose polls keep to the order that is stored, what is stored of each stream is what it begins
with, line for line, and all of it once all was read. -/
theorem ec2_lines_exactly_once (paged : Paged weather content place) {first last : World (Fleet δ)}
    (unread : Unread backend id command handle first)
    (run : Relation.ReflTransGen
      (LogStep backend weather id command handle (KeepsOrder backend weather handle)) first last) :
    OutputOnly (last.db.output id) ∧ ∀ stream ∈ outputStreams,
      onStream stream (last.db.output id) <+: printed content command handle last.account.requests stream ∧
        (ReadOut backend content place id command handle last →
          onStream stream (last.db.output id) = printed content command handle last.account.requests stream) := by
  have following : Following backend content place id command handle last := by
    induction run with
    | refl => exact unread.following paged
    | tail _ step kept =>
        cases step with
        | drain row copy found mine there cursor steady met =>
            exact kept.drain paged found mine there cursor steady met
        | restart account later =>
            exact kept.moved paged (buffered_forget paged account) later rfl rfl
        | elsewhere same output row =>
            exact kept.moved paged (kept.buffered.same paged same) same.later output row
  refine ⟨following.only, fun stream member => ⟨following.stored stream member, fun readOut => ?_⟩⟩
  exact following.whole readOut stream member

end

/-! ### Two processes -/

/-- Where every request is answered, none is refused as one of a machine there is not. -/
theorem answered_honest : ∀ (_ : Nat) code, Fate.answered = .refused code → unknownInstance code = false :=
  fun _ code refused => by cases refused

/-- A log service that returns a stream's lines from the place of the token on, all that there are. -/
def Weather.paging (content : Nat → String → List String) : Weather where
  clock := fun _ => 0
  fate := fun _ => .answered
  moves := fun _ machine => some (machine.state, machine.stateReason, machine.online)
  invocation := fun _ _ _ => .ok ⟨"InProgress", none, "", ""⟩
  logEvents := fun asked name token =>
    let start := (token.map String.length).getD 0
    let page := (content asked name).drop start
    .ok (page, some (String.ofList (List.replicate (start + page.length) '.')))
  spotPrices := fun _ => []
  honest := answered_honest

theorem paged_paging {content : Nat → String → List String}
    (grows : ∀ name {first later}, first ≤ later → content first name <+: content later name) :
    Paged (Weather.paging content) content fun token => (token.map String.length).getD 0 where
  grows := grows
  head := rfl
  page := by
    intro asked name token messages next read
    cases read
    refine ⟨List.prefix_rfl, _, rfl, ?_⟩
    simp [← String.length_toList]

/-- A backend on the account. -/
def Ec2Backend.plain : Ec2Backend where
  name := "ec2"
  tier := none
  spot := false
  aws := ⟨none, none, [], [], [], 0⟩
  stamps := Sheet.stamps
  cacheTime := 0
  maxLaunchFailures := 3
  cooldown := 0
  parseSample := fun _ => none

/-- A command that has printed a line on each stream, and at a request another on standard output. -/
def twoLines (turn asked : Nat) (name : String) : List String :=
  if name = commandLogStream "command" "machine" "stdout" then
    if asked < turn then ["epoch 1"] else ["epoch 1", "epoch 2"]
  else if name = commandLogStream "command" "machine" "stderr" then ["a warning"]
  else []

theorem twoLines_grows (turn : Nat) (name : String) {first later : Nat} (onward : first ≤ later) :
    twoLines turn first name <+: twoLines turn later name := by
  unfold twoLines
  split
  · split
    · split
      · exact List.prefix_rfl
      · exact ⟨["epoch 2"], rfl⟩
    · next after =>
      rw [if_neg fun before => after (onward.trans_lt before)]
  · exact List.prefix_rfl

/-- Ann's job runs on a machine of the account. -/
def World.onMachine : World (Fleet Unit) :=
  let machine : Instance :=
    ⟨"machine", "g4dn.xlarge", .running, "", false, true, [(tagJobId, "job"), (tagCommandId, "command")]⟩
  let row : Job := { Job.annsOwn with state := .running, backend := some "ec2", backendHandle := some "machine" }
  let world : World (Fleet Unit) := World.new .club ⟨.fresh { Ec2.new with instances := [machine] }, ()⟩ fun _ => 0
  { world with db := { world.db with jobs := ⟨[row], List.nodup_singleton _⟩ } }

/-- The output of Ann's job is read. -/
def World.read (weather : Weather) (world : World (Fleet Unit)) : World (Fleet Unit) :=
  match world.db.jobs.find "job" with
  | some row => ((drainLogs row (Ec2Backend.plain.served weather)).whole world).2
  | none => world

/-- The broker starts again. -/
def World.again (world : World (Fleet Unit)) : World (Fleet Unit) := Plant.restarted world.account world

theorem LogStep.read {weather : Weather} {meets : World (Fleet Unit) → Job → Prop} {world : World (Fleet Unit)}
    (row : (world.db.jobs.find "job").bind Job.backendHandle = some "machine")
    (tagged : ((Ec2Backend.plain.commandId weather "machine").whole world.account).1 = .ok (some "command"))
    (met : ∀ row ∈ world.db.jobs.find "job", meets world row) :
    LogStep Ec2Backend.plain weather "job" "command" "machine" meets world (world.read weather) := by
  obtain ⟨job, found, there⟩ := Option.bind_eq_some_iff.mp row
  have steady : ∀ other, ((Ec2Backend.plain.commandId weather "machine").whole world.account).1 =
      .ok (some other) → other = "command" := by
    intro other same
    rw [tagged] at same
    exact (Option.some.inj (Except.ok.inj same)).symm
  have drained := LogStep.drain job job found (Table.find_key found) there rfl steady (met job found)
  unfold World.read
  rw [found]
  exact drained

theorem LogStep.again {backend : Ec2Backend} {weather : Weather} {id : JobId} {command handle : String}
    {meets : World (Fleet Unit) → Job → Prop} (world : World (Fleet Unit)) :
    LogStep backend weather id command handle meets world world.again := .restart world.account le_rfl

theorem unread_onMachine : Unread Ec2Backend.plain "job" "command" "machine" World.onMachine :=
  ⟨by decide +kernel, by decide +kernel, by decide +kernel, by decide +kernel⟩

/-- Between two processes nothing is printed, and each line is stored once. -/
theorem ec2_lines_of_two_processes :
    let weather := Weather.paging (twoLines 7)
    let last := ((World.onMachine.read weather).again.read weather).read weather
    onStream "stdout" (last.db.output "job") = ["epoch 1", "epoch 2"] ∧
      onStream "stderr" (last.db.output "job") = ["a warning"] := by
  intro weather last
  have paged := paged_paging fun name {first later} => twoLines_grows 7 name
  have run : Relation.ReflTransGen (LogStep Ec2Backend.plain weather "job" "command" "machine"
      (KeepsOrder Ec2Backend.plain weather "machine")) World.onMachine last := by
    refine (((Relation.ReflTransGen.single (LogStep.read ?_ ?_ ?_)).tail (LogStep.again _)).tail
      (LogStep.read ?_ ?_ ?_)).tail (LogStep.read ?_ ?_ ?_)
    · decide +kernel
    · decide +kernel
    · decide +kernel
    · decide +kernel
    · decide +kernel
    · decide +kernel
    · decide +kernel
    · decide +kernel
    · decide +kernel
  have readOut : ReadOut Ec2Backend.plain (twoLines 7) (fun token => (token.map String.length).getD 0) "job"
      "command" "machine" last := by
    exact ⟨by decide +kernel, by decide +kernel⟩
  obtain ⟨_, all⟩ := ec2_lines_exactly_once paged unread_onMachine run
  exact ⟨((all "stdout" (by decide)).2 readOut).trans (by decide +kernel),
    ((all "stderr" (by decide)).2 readOut).trans (by decide +kernel)⟩

/-- A line is printed on standard output before the second process reads the streams from their heads: the
line on standard error is stored again, and the new line is not, though all was read. -/
theorem restart_misorders :
    let weather := Weather.paging (twoLines 4)
    let place := fun token : Option String => (token.map String.length).getD 0
    let last := (World.onMachine.read weather).again.read weather
    Paged weather (twoLines 4) place ∧ Unread Ec2Backend.plain "job" "command" "machine" World.onMachine ∧
      Relation.ReflTransGen (LogStep Ec2Backend.plain weather "job" "command" "machine" fun _ _ => True)
        World.onMachine last ∧
      ReadOut Ec2Backend.plain (twoLines 4) place "job" "command" "machine" last ∧
      last.db.output "job" = [("stdout", "epoch 1"), ("stderr", "a warning"), ("stderr", "a warning")] ∧
      onStream "stdout" (last.db.output "job") ≠
        printed (twoLines 4) "command" "machine" last.account.requests "stdout" ∧
      ¬ onStream "stderr" (last.db.output "job") <+:
        printed (twoLines 4) "command" "machine" last.account.requests "stderr" := by
  intro weather place last
  refine ⟨paged_paging fun name {first later} => twoLines_grows 4 name, unread_onMachine, ?_,
    ⟨by decide +kernel, by decide +kernel⟩, by decide +kernel, by decide +kernel, by decide +kernel⟩
  refine ((Relation.ReflTransGen.single (LogStep.read ?_ ?_ fun _ _ => trivial)).tail (LogStep.again _)).tail
    (LogStep.read ?_ ?_ fun _ _ => trivial)
  · decide +kernel
  · decide +kernel
  · decide +kernel
  · decide +kernel

end GpuBroker.Broker
