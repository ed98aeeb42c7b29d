/-
This file is the output of a job on a host of the club's own, as the broker
reads it: the tail of a file that grows, from a cursor that counts the lines
that were read before.

The host counts lines that end in a newline, prints what comes after the last of
them too, and the broker counts what Python splits the text into. So the broker
reads each line once exactly as long as no line is split by another character,
and no poll finds a part of a line.
-/
import GpuBroker.Library.Lines
import GpuBroker.Broker.Logs

namespace GpuBroker.Broker

open Library

variable {γ : Type}

/-! ### Text and bytes -/

/-- The byte that ends a line. -/
def newline : UInt8 := 10

/-- A text in bytes. -/
def utf8 (text : List Char) : List UInt8 := text.flatMap String.utf8EncodeChar

/-- A transport hands on what a command printed as text where it is one in UTF-8, and fails where it is not. -/
def Decodes (decode : List UInt8 → Option String) : Prop :=
  ∀ bytes text, decode bytes = some text ↔ utf8 text.toList = bytes

/-- What a transport makes of the bytes of a command. -/
def utf8Text (bytes : List UInt8) : Option String := String.fromUTF8? bytes.toByteArray

theorem decodes_utf8Text : Decodes utf8Text := by
  intro bytes text
  have encoded : text.toByteArray = (utf8 text.toList).toByteArray := String.utf8Encode_toList.symm
  unfold utf8Text String.fromUTF8?
  constructor
  · intro read
    split at read
    · cases read
      have same : bytes.toByteArray = (utf8 _).toByteArray := encoded
      simpa using (congrArg (fun array => array.data.toList) same).symm
    · cases read
  · rintro rfl
    rw [← encoded, dif_pos text.isValidUTF8]
    rfl

/-- Only the newline is encoded with the byte that ends a line. -/
theorem spells_newline : Spells String.utf8EncodeChar '\n' newline := by
  refine ⟨rfl, fun letter other member => ?_⟩
  have code : letter.val.toNat ≠ 10 := by
    intro same
    exact other (Char.ext (UInt32.toNat_inj.mp same))
  have byte : ∀ number : Nat, newline = UInt8.ofNat number → number % 256 = 10 := by
    intro number same
    exact (congrArg UInt8.toNat same).symm
  unfold String.utf8EncodeChar at member
  simp only at member
  split at member
  · have := byte _ (List.mem_singleton.mp member)
    omega
  · split at member
    · simp only [List.mem_cons, List.not_mem_nil, or_false] at member
      rcases member with same | same <;> have := byte _ same <;> omega
    · split at member
      · simp only [List.mem_cons, List.not_mem_nil, or_false] at member
        rcases member with same | same | same <;> have := byte _ same <;> omega
      · simp only [List.mem_cons, List.not_mem_nil, or_false] at member
        rcases member with same | same | same | same <;> have := byte _ same <;> omega

/-! ### Splitting lines -/

/-- The characters that end a line for `splitlines`. -/
def lineBreaks : List Char :=
  ['\n', '\r', '\x0b', '\x0c', '\x1c', '\x1d', '\x1e', '\x85', '\u2028', '\u2029']

/-- A text between line breaks; a carriage return and a newline after it are one of them, and nothing comes
after the last. -/
def pieces : List Char → List (List Char)
  | [] => []
  | '\r' :: '\n' :: rest => [] :: pieces rest
  | letter :: rest =>
      if letter ∈ lineBreaks then [] :: pieces rest
      else
        match pieces rest with
        | [] => [[letter]]
        | piece :: more => (letter :: piece) :: more

/-- The lines of a text as Python splits it. -/
def splitlines (text : String) : List String := (pieces text.toList).map String.ofList

/-- A text without a line break. -/
def OneLine (text : List Char) : Prop := ∀ letter ∈ text, letter ∉ lineBreaks

instance (text : List Char) : Decidable (OneLine text) :=
  decidableLetters text fun letter => letter ∉ lineBreaks

theorem pieces_cons {letter : Char} (plain : letter ∉ lineBreaks) (rest : List Char) :
    pieces (letter :: rest) =
      match pieces rest with
      | [] => [[letter]]
      | piece :: more => (letter :: piece) :: more := by
  rw [pieces, if_neg plain]
  rintro rest rfl
  exact absurd (by decide) plain

/-- A line that is ended by a newline is a piece, unless something else ends it before. -/
theorem pieces_line {line : List Char} (plain : OneLine line) (rest : List Char) :
    pieces (line ++ '\n' :: rest) = line :: pieces rest := by
  induction line with
  | nil =>
      rw [List.nil_append, pieces, if_pos (by decide)]
      intro _ same
      exact absurd same (by decide)
  | cons letter line shorter =>
      rw [List.cons_append, pieces_cons (plain letter List.mem_cons_self),
        shorter fun other member => plain other (List.mem_cons_of_mem _ member)]

/-- Lines that nothing else ends are pieces. -/
theorem pieces_joined {lines : List (List Char)} (plain : ∀ line ∈ lines, OneLine line) (rest : List Char) :
    pieces (joined '\n' lines ++ rest) = lines ++ pieces rest := by
  induction lines with
  | nil => rfl
  | cons line lines shorter =>
      rw [joined_cons, List.append_assoc, List.cons_append, pieces_line (plain line List.mem_cons_self),
        shorter fun other member => plain other (List.mem_cons_of_mem _ member)]
      rfl

/-- No piece has a line break of its own. -/
theorem pieces_oneLine (text : List Char) : ∀ piece ∈ pieces text, OneLine piece := by
  induction text using pieces.induct with
  | case1 => exact fun piece member => absurd member List.not_mem_nil
  | case2 rest shorter =>
      rw [pieces]
      intro piece member
      rcases List.mem_cons.mp member with rfl | later
      · exact fun letter there => absurd there List.not_mem_nil
      · exact shorter piece later
  | case3 letter rest single broken shorter =>
      rw [pieces, if_pos broken]
      · intro piece member
        rcases List.mem_cons.mp member with rfl | later
        · exact fun letter there => absurd there List.not_mem_nil
        · exact shorter piece later
      · exact single
  | case4 letter rest single plain none =>
      rw [pieces_cons plain, none]
      intro piece member
      rw [List.mem_singleton.mp member]
      exact fun other there => List.mem_singleton.mp there ▸ plain
  | case5 letter rest single plain first more split shorter =>
      rw [pieces_cons plain, split]
      rw [split] at shorter
      intro piece member
      rcases List.mem_cons.mp member with rfl | later
      · intro other there
        rcases List.mem_cons.mp there with rfl | inside
        · exact plain
        · exact shorter first List.mem_cons_self other inside
      · exact shorter piece (List.mem_cons_of_mem _ later)

/-- A text that is not empty has a first piece, and begins with it. -/
theorem pieces_first {text : List Char} (written : text ≠ []) :
    ∃ piece more, pieces text = piece :: more ∧ piece <+: text := by
  induction text using pieces.induct with
  | case1 => exact absurd rfl written
  | case2 rest => exact ⟨[], pieces rest, by rw [pieces], List.nil_prefix⟩
  | case3 letter rest single broken =>
      refine ⟨[], pieces rest, ?_, List.nil_prefix⟩
      rw [pieces, if_pos broken]
      exact single
  | case4 letter rest single plain none =>
      rw [pieces_cons plain, none]
      exact ⟨[letter], [], rfl, List.cons_prefix_cons.mpr ⟨rfl, List.nil_prefix⟩⟩
  | case5 letter rest single plain first more split shorter =>
      rw [pieces_cons plain, split]
      refine ⟨letter :: first, more, rfl, List.cons_prefix_cons.mpr ⟨rfl, ?_⟩⟩
      by_cases ended : rest = []
      · subst ended
        cases split
      · obtain ⟨piece, others, same, begins⟩ := shorter ended
        rw [split] at same
        cases same
        exact begins

/-- A text on one line is one piece. -/
theorem pieces_whole {text : List Char} (plain : OneLine text) (written : text ≠ []) : pieces text = [text] := by
  induction text with
  | nil => exact absurd rfl written
  | cons letter rest shorter =>
      rw [pieces_cons (plain letter List.mem_cons_self)]
      by_cases ended : rest = []
      · subst ended
        rfl
      · rw [shorter (fun other member => plain other (List.mem_cons_of_mem _ member)) ended]

/-! ### Polls -/

/-- What a poll finds: whether the host is one of the club's, whether it answers, and its file of what the
job has put out so far, where there is one. -/
structure Poll where
  known : Bool
  answers : Bool
  file : Option (List UInt8)

/-- What the job has put out so far. -/
def Poll.content (poll : Poll) : List UInt8 := poll.file.getD []

/-- What `tail -n +K` prints of a file, from its K-th line on; nothing of a file that is not there. -/
def tailFrom (first : Nat) : Option (List UInt8) → List UInt8
  | none => []
  | some content => dropLines newline (first - 1) content

/-- What the command for a job's output prints: `tail` counts from one, so from the line after the cursor. -/
def tailOutput (after : Nat) (file : Option (List UInt8)) : List UInt8 := tailFrom (after + 1) file

/-- The lines of a job after a cursor; none where the host is not known, or the command fails. -/
def localFetchLogs (decode : List UInt8 → Option String) (poll : Poll) (after : Nat) : List Line :=
  if !poll.known then []
  else if !poll.answers then []
  else
    match decode (tailOutput after poll.file) with
    | none => []
    | some stdout => if stdout = "" then [] else (splitlines stdout).map fun line => ("stdout", line)

/-- What a fetch returns past the cursor of a job is stored, and the cursor moved over it; beside the lines
of this poll. -/
def World.drained (world : World γ) (id : JobId) (fetch : Nat → List Line) : World γ × List Line :=
  match world.db.jobs.find id with
  | none => (world, [])
  | some job =>
      let lines := fetch job.logsFetched
      (((appendBackendLogs job lines).whole world).2, lines)

/-- The world after some polls of a job's output, and the lines of each. -/
def World.followed (decode : List UInt8 → Option String) (world : World γ) (id : JobId) (polls : List Poll) :
    World γ × List (List Line) :=
  polls.foldl
    (fun (world, batches) poll =>
      let (next, lines) := world.drained id (localFetchLogs decode poll)
      (next, batches ++ [lines]))
    (world, [])

/-- A touch whose lines the table takes sets the row's columns. -/
theorem whole_touch_row {α : Type} {world : World γ} {id : JobId} {columns : Touch} {job : Job} (now : Time)
    (value : α) (found : world.db.jobs.find id = some job) (takes : world.Takes id columns.lines) :
    let next := ((executing (.touch id columns now) value).whole world).2
    next.db.jobs.find id = some (columns.onRow now job) ∧ next.cloud = world.cloud := by
  have known : ((world.db.jobs.find id).isSome && columns.lines.all fun line => line.1 ∈ logStreams) = true := by
    rw [Bool.and_eq_true, List.all_eq_true]
    exact ⟨takes.1, fun line member => decide_eq_true (takes.2 line member)⟩
  rw [whole_executing, touch_apply]
  unfold Db.touchJob
  simp only [known, Bool.not_true, Bool.and_false, Bool.false_eq_true, if_false]
  exact ⟨(Table.find_modify_found found _ _ id).trans (if_pos rfl), trivial⟩

/-- The cursor is moved over every line that was read. -/
theorem appendBackendLogs_row {world : World γ} {id : JobId} {row copy : Job} {lines : List Line}
    (found : world.db.jobs.find id = some row) (mine : copy.jobId = id)
    (cursor : copy.logsFetched = row.logsFetched) (streams : ∀ line ∈ lines, line.1 ∈ logStreams) :
    let next := ((appendBackendLogs copy lines).whole world).2
    next.cloud = world.cloud ∧ ∃ later, next.db.jobs.find id = some later ∧
      later.backendHandle = row.backendHandle ∧ later.logsFetched = row.logsFetched + lines.length := by
  subst mine
  unfold appendBackendLogs
  simp only
  split
  · next empty =>
    rw [List.isEmpty_iff.mp empty]
    exact ⟨rfl, row, found, rfl, rfl⟩
  · rw [whole_now, whole_settings, whole_query]
    have here : world.ticked.db.jobs.find copy.jobId = some row := found
    have takes : world.ticked.Takes copy.jobId (Touch.output copy.logsFetched lines
        (withinLogBudget world.ticked.config (world.ticked.db.logCount copy.jobId) lines)).lines :=
      (takes_within_iff (Option.isSome_of_mem here) _ lines).mpr fun line member =>
        streams line (List.mem_of_mem_take member)
    obtain ⟨later, cloud⟩ := whole_touch_row (world.clock world.asked) (copy.logsFetched + lines.length) here takes
    exact ⟨cloud, _, later, rfl, congrArg (· + lines.length) cursor⟩

/-- A drain moves the cursor over the lines it reads. -/
theorem drained_cursor {world : World γ} {id : JobId} {job : Job} {fetch : Nat → List Line}
    (found : world.db.jobs.find id = some job) (streams : ∀ line ∈ fetch job.logsFetched, line.1 ∈ logStreams) :
    (world.drained id fetch).2 = fetch job.logsFetched ∧
      ∃ later, (world.drained id fetch).1.db.jobs.find id = some later ∧
        later.logsFetched = job.logsFetched + (fetch job.logsFetched).length := by
  obtain ⟨_, later, after, _, moved⟩ := appendBackendLogs_row found (Table.find_key found) rfl streams
  unfold World.drained
  rw [found]
  exact ⟨rfl, later, after, moved⟩

/-! ### What is read -/

/-- The lines of a text of the job's. -/
def outputLines (lines : List (List Char)) : List Line :=
  lines.map fun line => ("stdout", String.ofList line)

/-- The lines that some polls return, each asked for what comes after those before it. -/
def collected (decode : List UInt8 → Option String) (polls : List Poll) : List Line :=
  polls.foldl (fun lines poll => lines ++ localFetchLogs decode poll lines.length) []

/-- A poll reads the file: the host is known and answers, and what the last newline is followed by is text. -/
def Poll.Reads (decode : List UInt8 → Option String) (poll : Poll) : Prop :=
  poll.known = true ∧ poll.answers = true ∧ (decode (remainder newline poll.content)).isSome = true

/-- The lines a poll shows: those that are ended, and what comes after them. -/
def Poll.shown (poll : Poll) : Nat :=
  (terminated newline poll.content).length + if remainder newline poll.content = [] then 0 else 1

/-- The output can be followed: each line is text, on one line for Python too; each poll that reads the file
finds lines that are ended, and at most all of one that is not ended yet; and some poll finds the last line. -/
structure Followable (decode : List UInt8 → Option String) (polls : List Poll) (final : List UInt8) : Prop where
  plain : ∀ line ∈ terminated newline final, ∃ text, decode line = some text ∧ OneLine text.toList
  whole : ∀ poll ∈ polls, poll.Reads decode → remainder newline poll.content ≠ [] →
    (terminated newline final)[(terminated newline poll.content).length]? = some (remainder newline poll.content)
  last : terminated newline final = [] ∨
    ∃ poll ∈ polls, poll.Reads decode ∧ (terminated newline final).length ≤ poll.shown

variable {decode : List UInt8 → Option String}

theorem collected_snoc (polls : List Poll) (poll : Poll) :
    collected decode (polls ++ [poll]) =
      collected decode polls ++ localFetchLogs decode poll (collected decode polls).length :=
  List.foldl_concat ..

/-- A fetch returns lines of output, each on one line. -/
theorem localFetchLogs_lines (poll : Poll) (after : Nat) :
    ∃ texts, localFetchLogs decode poll after = outputLines texts ∧ ∀ text ∈ texts, OneLine text := by
  unfold localFetchLogs
  have none : ∃ texts, ([] : List Line) = outputLines texts ∧ ∀ text ∈ texts, OneLine text :=
    ⟨[], rfl, fun text member => absurd member List.not_mem_nil⟩
  split
  · exact none
  · split
    · exact none
    · split
      · exact none
      · next stdout _ =>
        split
        · exact none
        · exact ⟨pieces stdout.toList, List.map_map, pieces_oneLine _⟩

/-- And so do some polls. -/
theorem collected_lines (polls : List Poll) :
    ∃ texts, collected decode polls = outputLines texts ∧ ∀ text ∈ texts, OneLine text := by
  induction polls using List.reverseRecOn with
  | nil => exact ⟨[], rfl, fun text member => absurd member List.not_mem_nil⟩
  | append_singleton polls poll earlier =>
      obtain ⟨before, read, plain⟩ := earlier
      obtain ⟨more, fetched, split⟩ := localFetchLogs_lines poll (collected decode polls).length
      refine ⟨before ++ more, ?_, fun text member => ?_⟩
      · rw [collected_snoc, fetched, read]
        exact List.map_append.symm
      · rcases List.mem_append.mp member with old | new
        · exact plain text old
        · exact split text new

/-- What the cursor of a job's row is moved over is what was read. -/
theorem followed_collected {world : World γ} {id : JobId} {job : Job} (found : world.db.jobs.find id = some job)
    (unread : job.logsFetched = 0) (polls : List Poll) :
    (world.followed decode id polls).2.flatten = collected decode polls ∧
      ∃ later, (world.followed decode id polls).1.db.jobs.find id = some later ∧
        later.logsFetched = (collected decode polls).length := by
  induction polls using List.reverseRecOn with
  | nil => exact ⟨rfl, job, found, unread⟩
  | append_singleton polls poll earlier =>
      obtain ⟨batches, row, there, cursor⟩ := earlier
      have step : world.followed decode id (polls ++ [poll]) =
          (((world.followed decode id polls).1.drained id (localFetchLogs decode poll)).1,
            (world.followed decode id polls).2 ++
              [((world.followed decode id polls).1.drained id (localFetchLogs decode poll)).2]) :=
        List.foldl_concat ..
      have streams : ∀ line ∈ localFetchLogs decode poll row.logsFetched, line.1 ∈ logStreams := by
        obtain ⟨texts, fetched, _⟩ := localFetchLogs_lines poll row.logsFetched
        rw [fetched]
        intro line member
        obtain ⟨text, _, rfl⟩ := List.mem_map.mp member
        show "stdout" ∈ logStreams
        decide
      obtain ⟨read, later, after, moved⟩ := drained_cursor there streams
      rw [step, collected_snoc]
      refine ⟨?_, later, after, ?_⟩
      · rw [List.flatten_append, batches, read, cursor, List.flatten_singleton]
      · rw [moved, cursor, List.length_append]

theorem tailOutput_eq (after : Nat) (file : Option (List UInt8)) :
    tailOutput after file = dropLines newline after (file.getD []) := by
  cases file with
  | none =>
      rw [dropLines_eq]
      unfold tailOutput tailFrom
      simp [terminated, remainder, joined]
  | some content => rfl

/-- What is printed of lines and a text after them, past a cursor that is not beyond the lines. -/
theorem tailOutput_within {poll : Poll} {lines : List (List Char)}
    (whole : terminated newline poll.content = lines.map utf8) {after : Nat} (within : after ≤ lines.length) :
    tailOutput after poll.file =
      utf8 (joined '\n' (lines.drop after)) ++ remainder newline poll.content := by
  have encoded : utf8 (joined '\n' (lines.drop after)) = joined newline ((lines.map utf8).drop after) :=
    (joined_spelled spells_newline _).trans (congrArg _ List.map_drop)
  rw [tailOutput_eq, encoded, ← whole]
  refine (dropLines_eq after poll.content).trans (congrArg _ (if_pos ?_))
  rw [whole, List.length_map]
  exact within

/-- A poll that reads the file returns the lines after the cursor, and the pieces of what comes after them. -/
theorem localFetchLogs_read (decodes : Decodes decode) {poll : Poll} {lines : List (List Char)}
    (plain : ∀ line ∈ lines, OneLine line) (whole : terminated newline poll.content = lines.map utf8)
    (known : poll.known = true) (answers : poll.answers = true) {rest : List Char}
    (left : utf8 rest = remainder newline poll.content) {after : Nat} (within : after ≤ lines.length) :
    localFetchLogs decode poll after = outputLines (lines.drop after ++ pieces rest) := by
  have printed : decode (tailOutput after poll.file) =
      some (String.ofList (joined '\n' (lines.drop after) ++ rest)) := by
    refine (decodes _ _).mpr ?_
    rw [tailOutput_within whole within, ← left, String.toList_ofList]
    exact List.flatMap_append
  have split : outputLines (lines.drop after ++ pieces rest) =
      (splitlines (String.ofList (joined '\n' (lines.drop after) ++ rest))).map fun line => ("stdout", line) := by
    unfold splitlines
    rw [String.toList_ofList, pieces_joined fun line member => plain line (List.mem_of_mem_drop member),
      List.map_map]
    rfl
  unfold localFetchLogs
  rw [known, answers, printed, split]
  simp only [Bool.not_true, Bool.false_eq_true, if_false]
  split
  · next empty =>
    rw [empty]
    rfl
  · rfl

/-- A poll that does not read the file, or finds no line after the cursor, returns nothing. -/
theorem localFetchLogs_unread (decodes : Decodes decode) {poll : Poll} {lines : List (List Char)}
    (whole : terminated newline poll.content = lines.map utf8) {after : Nat}
    (unread : ¬ poll.Reads decode ∨ lines.length < after) : localFetchLogs decode poll after = [] := by
  unfold localFetchLogs
  split
  · rfl
  · next known =>
    split
    · rfl
    · next answers =>
      split
      · rfl
      · next text printed =>
        have bytes := (decodes _ _).mp printed
        rcases Nat.lt_or_ge lines.length after with beyond | within
        · have nothing : tailOutput after poll.file = [] := by
            rw [tailOutput_eq]
            refine (dropLines_eq after poll.content).trans ?_
            rw [whole, List.drop_of_length_le (by rw [List.length_map]; exact beyond.le),
              if_neg (by rw [List.length_map]; exact not_le.mpr beyond)]
            rfl
          have empty : text = "" := by
            have same := (decodes [] "").mpr rfl
            rw [nothing, same] at printed
            exact (Option.some.inj printed).symm
          rw [if_pos empty]
        · refine absurd ?_ (unread.resolve_right (not_lt.mpr within))
          have lettered : remainder newline (tailOutput after poll.file) = remainder newline poll.content := by
            rw [tailOutput_within whole within, show utf8 (joined '\n' (lines.drop after)) = _ from
              joined_spelled spells_newline _]
            refine (terminated_unique ?_ (unmarked_remainder newline poll.content)).2
            intro line member
            rw [List.map_drop] at member
            exact unmarked_of_terminated (whole ▸ List.mem_of_mem_drop member)
          have rest : utf8 (remainder '\n' text.toList) = remainder newline poll.content := by
            rw [← lettered, ← bytes]
            exact (terminated_spelled spells_newline text.toList).2.symm
          refine ⟨by simpa using known, by simpa using answers, ?_⟩
          rw [(decodes _ (String.ofList (remainder '\n' text.toList))).mpr (by
            rw [String.toList_ofList]
            exact rest)]
          rfl

/-! ### Runs of polls -/

theorem outputLines_append (first second : List (List Char)) :
    outputLines (first ++ second) = outputLines first ++ outputLines second := List.map_append

/-- What begins some lines of output is the output of what begins them. -/
theorem prefix_of_outputLines {first second : List (List Char)}
    (begins : outputLines first <+: outputLines second) : first <+: second := by
  have back : ∀ lines, (outputLines lines).map (fun line => line.2.toList) = lines := by
    intro lines
    unfold outputLines
    rw [List.map_map]
    refine (List.map_congr_left fun line _ => ?_).trans (List.map_id lines)
    exact String.toList_ofList
  rw [← back first, ← back second]
  exact begins.map _

theorem outputLines_length (lines : List (List Char)) : (outputLines lines).length = lines.length :=
  List.length_map _

/-- The lines a poll finds are among those the file ends up with. -/
theorem terminated_take {content final : List UInt8} {lines : List (List Char)}
    (whole : terminated newline final = lines.map utf8) (within : content <+: final) :
    (terminated newline content).length ≤ lines.length ∧
      terminated newline content = (lines.take (terminated newline content).length).map utf8 := by
  have begins : terminated newline content <+: terminated newline final := (terminated_grows newline within).1
  rw [whole] at begins
  refine ⟨List.length_map utf8 ▸ begins.length_le, ?_⟩
  rw [List.map_take]
  exact List.prefix_iff_eq_take.mp begins

/-- Some polls have returned the first lines, up to the last that any of them shows. -/
structure ReadUpTo (decode : List UInt8 → Option String) (lines : List (List Char)) (polls : List Poll)
    (count : Nat) : Prop where
  bound : count ≤ lines.length
  read : collected decode polls = outputLines (lines.take count)
  shown : ∀ poll ∈ polls, poll.Reads decode → poll.shown ≤ count
  source : count = 0 ∨ ∃ poll ∈ polls, poll.Reads decode ∧ count = poll.shown

section

variable {lines : List (List Char)} {polls : List Poll} {poll : Poll} {count : Nat}

theorem ReadUpTo.length (upTo : ReadUpTo decode lines polls count) : (collected decode polls).length = count := by
  rw [upTo.read, outputLines_length, List.length_take_of_le upTo.bound]

/-- A poll that shows nothing new. -/
theorem ReadUpTo.skip (upTo : ReadUpTo decode lines polls count)
    (nothing : localFetchLogs decode poll count = []) (old : poll.Reads decode → poll.shown ≤ count) :
    ReadUpTo decode lines (polls ++ [poll]) count where
  bound := upTo.bound
  read := by rw [collected_snoc, upTo.length, nothing, List.append_nil, upTo.read]
  shown other member reads := by
    rcases List.mem_append.mp member with before | last
    · exact upTo.shown other before reads
    · rw [List.mem_singleton.mp last] at reads ⊢
      exact old reads
  source := upTo.source.imp_right fun ⟨other, member, both⟩ => ⟨other, List.mem_append_left _ member, both⟩

/-- A poll that returns the lines up to those it shows. -/
theorem ReadUpTo.more (upTo : ReadUpTo decode lines polls count) (reads : poll.Reads decode)
    (new : count ≤ poll.shown) (bound : poll.shown ≤ lines.length)
    (fetched : localFetchLogs decode poll count = outputLines ((lines.take poll.shown).drop count)) :
    ReadUpTo decode lines (polls ++ [poll]) poll.shown where
  bound := bound
  read := by
    have before : lines.take count = (lines.take poll.shown).take count := by
      rw [List.take_take, min_eq_left new]
    rw [collected_snoc, upTo.length, fetched, upTo.read, before, ← outputLines_append, List.take_append_drop]
  shown other member other' := by
    rcases List.mem_append.mp member with before | last
    · exact (upTo.shown other before other').trans new
    · rw [List.mem_singleton.mp last]
  source := .inr ⟨poll, List.mem_append_right _ List.mem_cons_self, reads, rfl⟩

/-- A poll that finds at most all of a line keeps it so. -/
theorem ReadUpTo.step (upTo : ReadUpTo decode lines polls count) (decodes : Decodes decode)
    (plain : ∀ line ∈ lines, OneLine line) {final : List UInt8}
    (whole : terminated newline final = lines.map utf8) (within : poll.content <+: final)
    (part : poll.Reads decode → remainder newline poll.content ≠ [] →
      (terminated newline final)[(terminated newline poll.content).length]? =
        some (remainder newline poll.content)) :
    ∃ later, ReadUpTo decode lines (polls ++ [poll]) later := by
  obtain ⟨inside, found⟩ := terminated_take whole within
  have taken := List.length_take_of_le inside
  by_cases reads : poll.Reads decode
  · obtain ⟨known, answers, _⟩ := id reads
    rcases Nat.lt_or_ge (terminated newline poll.content).length count with beyond | room
    · refine ⟨count, upTo.skip (localFetchLogs_unread decodes found (.inr (taken.symm ▸ beyond))) fun _ => ?_⟩
      unfold Poll.shown
      split <;> omega
    · have fetched : ∀ rest, utf8 rest = remainder newline poll.content →
          localFetchLogs decode poll count = outputLines
            ((lines.take (terminated newline poll.content).length).drop count ++ pieces rest) :=
        fun rest left => localFetchLogs_read decodes (fun line member => plain line (List.mem_of_mem_take member))
          found known answers left (taken.symm ▸ room)
      by_cases ended : remainder newline poll.content = []
      · have shown : poll.shown = (terminated newline poll.content).length := by
          unfold Poll.shown
          rw [if_pos ended]
          rfl
        refine ⟨_, upTo.more reads (shown ▸ room) (shown ▸ inside) ?_⟩
        rw [fetched [] ended.symm, shown, pieces, List.append_nil]
      · have partly := part reads ended
        rw [whole, List.getElem?_map, Option.map_eq_some_iff] at partly
        obtain ⟨line, there, same⟩ := partly
        have shown : poll.shown = (terminated newline poll.content).length + 1 := by
          unfold Poll.shown
          rw [if_neg ended]
        have written : line ≠ [] := by
          rintro rfl
          exact ended same.symm
        have next : lines.take poll.shown = lines.take (terminated newline poll.content).length ++ [line] := by
          rw [shown, List.take_add_one, there]
          rfl
        refine ⟨_, upTo.more reads (shown ▸ room.trans (Nat.le_succ _)) ?_ ?_⟩
        · rw [shown]
          exact (List.getElem?_eq_some_iff.mp there).1
        · rw [fetched line same, pieces_whole (plain line (List.mem_of_getElem? there)) written, next,
            List.drop_append_of_le_length (taken.symm ▸ room)]
  · exact ⟨count, upTo.skip (localFetchLogs_unread decodes found (.inl reads)) fun read => absurd read reads⟩

/-- Where each line is on one line for Python, and no poll finds a part of one, the polls return the lines up
to the last that any of them shows. -/
theorem readUpTo_of_whole (decodes : Decodes decode) (plain : ∀ line ∈ lines, OneLine line)
    {final : List UInt8} (whole : terminated newline final = lines.map utf8)
    (within : ∀ poll ∈ polls, poll.content <+: final)
    (parts : ∀ poll ∈ polls, poll.Reads decode → remainder newline poll.content ≠ [] →
      (terminated newline final)[(terminated newline poll.content).length]? =
        some (remainder newline poll.content)) :
    ∃ count, ReadUpTo decode lines polls count := by
  induction polls using List.reverseRecOn with
  | nil => exact ⟨0, Nat.zero_le _, rfl, fun poll member => absurd member List.not_mem_nil, .inl rfl⟩
  | append_singleton polls poll earlier =>
      obtain ⟨count, upTo⟩ := earlier (fun other member => within other (List.mem_append_left _ member))
        fun other member => parts other (List.mem_append_left _ member)
      have mine : poll ∈ polls ++ [poll] := List.mem_append_right _ List.mem_cons_self
      exact upTo.step decodes plain whole (within poll mine) (parts poll mine)

/-- Where the polls return the lines of the file, or the first of them, none of them found a part of one. -/
theorem whole_of_collected (decodes : Decodes decode) (plain : ∀ line ∈ lines, OneLine line)
    {final : List UInt8} (whole : terminated newline final = lines.map utf8)
    (grows : polls.Pairwise fun first second => first.content <+: second.content)
    (within : ∀ poll ∈ polls, poll.content <+: final) (returned : collected decode polls <+: outputLines lines) :
    ∀ poll ∈ polls, poll.Reads decode → remainder newline poll.content ≠ [] →
      (terminated newline final)[(terminated newline poll.content).length]? =
        some (remainder newline poll.content) := by
  induction polls using List.reverseRecOn with
  | nil => exact fun poll member => absurd member List.not_mem_nil
  | append_singleton polls poll earlier =>
      have ordered := List.pairwise_append.mp grows
      have withinBefore : ∀ other ∈ polls, other.content <+: final := fun other member =>
        within other (List.mem_append_left _ member)
      have mine : poll.content <+: final := within poll (List.mem_append_right _ List.mem_cons_self)
      have before := earlier ordered.1 withinBefore
        ((List.prefix_append _ _).trans (collected_snoc polls poll ▸ returned))
      intro other member reads written
      rcases List.mem_append.mp member with old | last
      · exact before other old reads written
      rw [List.mem_singleton.mp last] at reads written ⊢
      obtain ⟨count, upTo⟩ := readUpTo_of_whole decodes plain whole withinBefore before
      obtain ⟨inside, found⟩ := terminated_take whole mine
      have taken := List.length_take_of_le inside
      have begins := (terminated_grows newline mine).2
      rcases Nat.lt_or_ge (terminated newline poll.content).length count with beyond | room
      · -- An earlier poll found all of the line, so there is no more of it.
        obtain none | ⟨first, listed, showed, same⟩ := upTo.source
        · omega
        have grown := terminated_grows newline (ordered.2.2 first listed poll List.mem_cons_self)
        have fewer := grown.1.length_le
        unfold Poll.shown at same
        split at same
        · omega
        · next part =>
          have level : (terminated newline first.content).length = (terminated newline poll.content).length := by
            omega
          have line := before first listed showed part
          have longer := grown.2
          rw [level, List.getElem?_eq_none le_rfl, Option.getD_none] at longer
          rw [level] at line
          rw [line, Option.getD_some] at begins
          rw [line, longer.eq_of_length_le begins.length_le]
      · -- The first piece of what is found is the line.
        obtain ⟨known, answers, text⟩ := reads
        obtain ⟨text, printed⟩ := Option.isSome_iff_exists.mp text
        have left := (decodes _ _).mp printed
        have fetched := localFetchLogs_read decodes (fun line member => plain line (List.mem_of_mem_take member))
          found known answers left (taken.symm ▸ room)
        have letters : text.toList ≠ [] := by
          intro none
          rw [none] at left
          exact written left.symm
        obtain ⟨piece, more, split, first⟩ := pieces_first letters
        have early : lines.take count = (lines.take (terminated newline poll.content).length).take count := by
          rw [List.take_take, min_eq_left room]
        rw [collected_snoc, upTo.length, fetched, upTo.read, early, ← outputLines_append, ← List.append_assoc,
          List.take_append_drop, split] at returned
        obtain ⟨rest, all⟩ := prefix_of_outputLines returned
        have line : lines[(terminated newline poll.content).length]? = some piece := by
          rw [← all, List.append_assoc, List.getElem?_append_right (by rw [taken]), taken, Nat.sub_self]
          rfl
        have shorter : utf8 piece <+: utf8 text.toList := by
          obtain ⟨tail, whole⟩ := first
          rw [← whole]
          exact ⟨utf8 tail, List.flatMap_append.symm⟩
        rw [whole, List.getElem?_map, line, Option.map_some] at begins ⊢
        rw [Option.getD_some, ← left] at begins
        rw [← left, shorter.eq_of_length_le begins.length_le]

end

/-- The batches are the lines of the file exactly when the output can be followed. -/
theorem local_batches_iff (decodes : Decodes decode) {world : World γ} {id : JobId} {job : Job}
    (found : world.db.jobs.find id = some job) (unread : job.logsFetched = 0) {polls : List Poll}
    {final : List UInt8} (grows : List.IsChain (· <+: ·) (polls.map Poll.content ++ [final])) :
    (world.followed decode id polls).2.flatten.map (fun line => utf8 line.2.toList) = terminated newline final ↔
      Followable decode polls final := by
  have ordered := List.pairwise_append.mp (List.isChain_iff_pairwise.mp grows)
  have pairs := List.pairwise_map.mp ordered.1
  have within : ∀ poll ∈ polls, poll.content <+: final := fun poll member =>
    ordered.2.2 _ (List.mem_map_of_mem member) final List.mem_cons_self
  rw [(followed_collected found unread polls).1]
  have bytes : ∀ lines, (outputLines lines).map (fun line => utf8 line.2.toList) = lines.map utf8 := by
    intro lines
    unfold outputLines
    rw [List.map_map]
    exact List.map_congr_left fun line _ => congrArg utf8 String.toList_ofList
  constructor
  · intro same
    obtain ⟨lines, read, plain⟩ := collected_lines polls
    have whole : terminated newline final = lines.map utf8 := by rw [← same, read, bytes]
    have parts := whole_of_collected decodes plain whole pairs within (read ▸ List.prefix_rfl)
    refine ⟨fun line member => ?_, parts, ?_⟩
    · rw [whole] at member
      obtain ⟨text, listed, rfl⟩ := List.mem_map.mp member
      refine ⟨String.ofList text, (decodes _ _).mpr (congrArg utf8 String.toList_ofList), ?_⟩
      rw [String.toList_ofList]
      exact plain text listed
    · obtain ⟨count, upTo⟩ := readUpTo_of_whole decodes plain whole within parts
      have all : lines.length = count := by rw [← upTo.length, read, outputLines_length]
      rw [whole, List.length_map, all]
      refine upTo.source.imp (fun none => ?_) fun ⟨poll, member, reads, same⟩ => ⟨poll, member, reads, same.le⟩
      rw [List.map_eq_nil_iff]
      exact List.length_eq_zero_iff.mp (all.trans none)
  · intro followable
    have whole : terminated newline final =
        ((terminated newline final).map fun line => ((decode line).getD "").toList).map utf8 := by
      rw [List.map_map]
      refine ((List.map_congr_left fun line member => ?_).trans (List.map_id _)).symm
      obtain ⟨text, printed, _⟩ := followable.plain line member
      show utf8 ((decode line).getD "").toList = line
      rw [printed]
      exact (decodes _ _).mp printed
    have plain : ∀ line ∈ (terminated newline final).map fun line => ((decode line).getD "").toList,
        OneLine line := by
      intro line member
      obtain ⟨encoded, listed, rfl⟩ := List.mem_map.mp member
      obtain ⟨text, printed, plain⟩ := followable.plain encoded listed
      rw [printed]
      exact plain
    obtain ⟨count, upTo⟩ := readUpTo_of_whole decodes plain whole within followable.whole
    have all : (terminated newline final).length ≤ count := by
      rcases followable.last with none | ⟨poll, member, reads, last⟩
      · rw [none]
        exact Nat.zero_le count
      · exact last.trans (upTo.shown poll member reads)
    rw [upTo.read, bytes, List.take_of_length_le (by rw [List.length_map]; exact all), ← whole]

/-- A poll of a host that answers, its file so far. -/
def Poll.of (written : String) : Poll := ⟨true, true, some (utf8 written.toList)⟩

/-- A job that prints whole lines is read to the end, past a poll that fails. -/
theorem local_batches_whole :
    let polls := [⟨true, true, none⟩, Poll.of "epoch 1\n", ⟨true, false, some (utf8 "epoch 1\nep".toList)⟩,
      Poll.of "epoch 1\nepoch 2\n"]
    ((World.brief 100 200).followed utf8Text "job" polls).2.flatten.map (fun line => utf8 line.2.toList) =
      terminated newline (utf8 "epoch 1\nepoch 2\n".toList) := by
  have queued : ((World.brief 100 200).db.jobs.find "job").map Job.logsFetched = some 0 := by decide +kernel
  obtain ⟨job, found, unread⟩ := Option.map_eq_some_iff.mp queued
  refine (local_batches_iff decodes_utf8Text found unread (by decide)).mpr ⟨?_, ?_, .inr ?_⟩
  · intro line member
    have lines : terminated newline (utf8 "epoch 1\nepoch 2\n".toList) =
        [utf8 "epoch 1".toList, utf8 "epoch 2".toList] := by decide
    rw [lines] at member
    simp only [List.mem_cons, List.not_mem_nil, or_false] at member
    rcases member with rfl | rfl
    · exact ⟨"epoch 1", (decodes_utf8Text _ _).mpr rfl, by decide⟩
    · exact ⟨"epoch 2", (decodes_utf8Text _ _).mpr rfl, by decide⟩
  · intro poll member reads written
    simp only [List.mem_cons, List.not_mem_nil, or_false] at member
    rcases member with rfl | rfl | rfl | rfl
    · exact absurd rfl written
    · exact absurd (by decide) written
    · exact absurd reads.2.1 (by decide)
    · exact absurd (by decide) written
  · exact ⟨Poll.of "epoch 1\nepoch 2\n", by simp, ⟨rfl, rfl, by decide +kernel⟩, by decide⟩

/-- A poll in the middle of a line takes the part for the line, and the rest is lost; and a line that is
split by a carriage return is counted twice, and the line after it lost. -/
theorem output_misread :
    let middle := [Poll.of "ep", Poll.of "epoch 1\n"]
    let bar := [Poll.of "10%\r20%\n", Poll.of "10%\r20%\ndone\n"]
    let read := fun polls => ((World.brief 100 200).followed utf8Text "job" polls).2
    Decodes utf8Text ∧ ((World.brief 100 200).db.jobs.find "job").map Job.logsFetched = some 0 ∧
      List.IsChain (· <+: ·) (middle.map Poll.content ++ [utf8 "epoch 1\n".toList]) ∧
      read middle = [[("stdout", "ep")], []] ∧
      (read middle).flatten.map (fun line => utf8 line.2.toList) ≠
        terminated newline (utf8 "epoch 1\n".toList) ∧
      List.IsChain (· <+: ·) (bar.map Poll.content ++ [utf8 "10%\r20%\ndone\n".toList]) ∧
      read bar = [[("stdout", "10%"), ("stdout", "20%")], []] ∧
      (read bar).flatten.map (fun line => utf8 line.2.toList) ≠
        terminated newline (utf8 "10%\r20%\ndone\n".toList) := by
  exact ⟨decodes_utf8Text, by decide +kernel⟩

end GpuBroker.Broker
