import BallyOS.Command.Completion

/-! Which fresh request is handed out, which is answered at once, and with what.
A ping is told by its action id alone; only the shell's action has its version checked. -/
namespace BallyOS.Command
open Btp Library

variable {Cache Seal : Type} {api : Api Cache} {fixed : Nat}

/-- What is relied on of the codecs: a request is decoded to the fields its bytes encode,
an encoded result tells its status, and the answer to a malformed request fits. -/
structure AnswersRequests (api : Api Cache) (fixed : Nat) : Prop where
  records : RecordsResults api fixed
  decodes : ∀ payload request, api.decodeCommandRequest payload = .ok request →
    kRequestPrefixSize ≤ payload.length ∧ request.actionId = readU16 payload 8 ∧
      request.actionVersion = readU16 payload 10 ∧
        request.parameters = payload.drop kRequestPrefixSize
  tells : ∀ one two capacity bytes, api.encodeCommandResult one capacity = some bytes →
    api.encodeCommandResult two capacity = some bytes → one.status = two.status
  refusal : fixed + (text "invalid shell command").length ≤ kMaxResultPayloadSize

/-- A frame with a valid envelope, for this robot, and what it asks for. -/
structure ValidRequest (api : Api Cache) (robot : Identity) (header : Header)
    (payload : List UInt8) (request : CommandRequest) : Prop where
  type : header.type = .command
  object : header.objectId = kCommandRequestObjectId
  flags : header.flags = 0
  whole : header.fragmentIndex = 0 ∧ header.fragmentCount = 1
  admissible : Admissible header.key payload
  decoded : api.decodeCommandRequest payload = .ok request
  target : request.targetSourceId = robot.sourceId ∧ request.targetBootId = robot.bootId

/-- A text that may be run as one shell command. -/
def ShellText (parameters : List UInt8) : Prop :=
  1 ≤ parameters.length ∧ parameters.length ≤ kMaxShellCommandSize ∧
    ∀ byte ∈ parameters, shellByte byte = true

def AsksShell (request : CommandRequest) : Prop :=
  (request.actionId = kShellActionId ∧ request.actionVersion = kShellActionVersion) ∧
    ShellText request.parameters

def AsksPing (request : CommandRequest) : Prop :=
  request.actionId = kPingActionId ∧ request.actionVersion = kPingActionVersion

/-- A result with this status is replied with, and recorded in the request's slot. -/
def Answers (api : Api Cache) (header : Header) (payload : List UInt8) (slot : Nat)
    (status : Status) (outcome : Intake) (after : Processor Cache Seal) : Prop :=
  ∃ channel error message view encoded, outcome = .resultReady view ∧
    encodeResult api (requestMeta header.key payload channel) status error message
      kMaxResultPayloadSize = some encoded ∧
    after.bytesOf view = encoded ∧
    api.dedup.entry after.dedup slot =
      some ⟨header.key, payload, some (packResult view.sequence view.timestampUs encoded)⟩

/-- The shell's requests and no others are handed out, pings and no others are answered
with success, and all else gets a recorded refusal. -/
structure AcceptsExactly (api : Api Cache) (header : Header) (payload : List UInt8)
    (request : CommandRequest) (slot : Nat) (outcome : Intake) (after : Processor Cache Seal) :
    Prop where
  ready : ∀ command, outcome = .ready slot command ↔
    AsksShell request ∧ command = request.parameters
  ping : Answers api header payload slot .success outcome after ↔ AsksPing request
  other : ¬AsksShell request → ¬AsksPing request →
    (∀ given command, outcome ≠ .ready given command) ∧
      (Answers api header payload slot .rejected outcome after ∨
        Answers api header payload slot .unsupported outcome after)

private theorem view_of_answers {outcome : Intake} {after : Processor Cache Seal}
    (answer : Answers api header payload slot status outcome after) :
    ∃ view, outcome = .resultReady view := by
  obtain ⟨_, _, _, view, _, result, _⟩ := answer
  exact ⟨view, result⟩

private theorem Status.code_injective {one two : Status} (same : one.code = two.code) : one = two :=
    by
  cases one <;> cases two <;> first | rfl | contradiction

/-- A result has one status. -/
theorem answers_unique (answers : AnswersRequests api fixed) {outcome : Intake}
    {after : Processor Cache Seal} (first : Answers api header payload slot one outcome after)
    (second : Answers api header payload slot two outcome after) : one = two := by
  obtain ⟨_, _, _, view, encoded, rfl, coded, bytes, _⟩ := first
  obtain ⟨_, _, _, _, other, same, coded', bytes', _⟩ := second
  cases same
  obtain rfl := bytes.symm.trans bytes'
  exact Status.code_injective (answers.tells _ _ _ _ coded coded')

private theorem parseRequest_of_valid (answers : AnswersRequests api fixed)
    (valid : ValidRequest api robot header payload request) :
    parseRequest api header payload robot = .ok request := by
  obtain ⟨_, _, _, parameters⟩ := answers.decodes payload request valid.decoded
  have short : request.parameters.length ≤ kMaxShellCommandSize := by
    have size := valid.admissible.size
    rw [parameters, List.length_drop]
    unfold kMaxLogicalRequestSize at size
    omega
  have ids := valid.admissible
  unfold parseRequest
  rw [if_neg (by rw [valid.type]; decide), if_neg (by simp [valid.object])]
  have source : header.sourceId ≠ 0 := ids.source
  have boot : header.bootId ≠ 0 := ids.boot
  rw [if_neg (by simp [valid.flags, valid.whole, source, boot]), valid.decoded]
  dsimp only
  rw [if_neg (by simp [valid.target]), if_neg (by omega)]

/-- What the shell runs is exactly a shell command's text. -/
theorem copyShellCommand_ok_iff (request : CommandRequest) (command : List UInt8) :
    copyShellCommand request (kMaxShellCommandSize + 1) = .ok command ↔
      AsksShell request ∧ command = request.parameters := by
  unfold copyShellCommand AsksShell ShellText
  split
  · rename_i other
    constructor
    · exact fun none => by contradiction
    · rintro ⟨⟨⟨id, version⟩, _⟩, _⟩
      simp [id, version] at other
  rename_i action
  simp only [ne_eq, not_or, Decidable.not_not] at action
  split
  · rename_i size
    constructor
    · exact fun none => by contradiction
    · rintro ⟨⟨_, some, short, _⟩, _⟩
      omega
  rename_i size
  rw [if_neg (by omega)]
  split
  · rename_i clean
    simp only [List.all_eq_true] at clean
    constructor
    · rintro same
      cases same
      exact ⟨⟨action, by omega, by omega, clean⟩, rfl⟩
    · rintro ⟨_, rfl⟩
      rfl
  · rename_i dirty
    simp only [List.all_eq_true] at dirty
    constructor
    · exact fun none => by contradiction
    · rintro ⟨⟨_, _, _, clean⟩, _⟩
      exact absurd clean dirty

/-- A request that is refused is refused for its action or for its text. -/
theorem copyShellCommand_error {request : CommandRequest}
    (refused : copyShellCommand request (kMaxShellCommandSize + 1) = .error error) :
    error = .unsupportedAction ∨ error = .invalidShellText := by
  unfold copyShellCommand at refused
  split at refused
  · cases refused
    exact .inl rfl
  split at refused
  · cases refused
    exact .inr rfl
  rename_i size
  rw [if_neg (by omega)] at refused
  split at refused
  · cases refused
  · cases refused
    exact .inr rfl

/-- A fresh request gets its slot, and is parsed. -/
theorem intake_fresh {processor : Processor Cache Seal} (robot : processor.endpoint = some self)
    (fits : heard processor false header payload = true)
    (classified : api.dedup.classify processor.dedup header.key payload = (.fresh slot, dedup)) :
    intake api processor false header payload nowUs reserved channel =
      intakeFresh api (processor.reserve slot (requestMeta header.key payload channel) dedup) slot
        header payload nowUs reserved self := by
  have classified : api.dedup.classify processor.dedup
    (requestMeta header.key payload channel).key payload = (.fresh slot, dedup) := classified
  unfold intake
  rw [if_neg (by rw [fits]; decide)]
  simp only [classified]
  split
  · rename_i unset
    cases robot.symm.trans unset
  · rename_i other set
    cases robot.symm.trans set
    rfl

/-- A result that is returned at receive time is recorded in the slot. -/
theorem answers_of_finish (lawful : api.dedup.Lawful kCacheCapacity)
    {processor : Processor Cache Seal}
    (held : api.dedup.entry processor.dedup slot = some ⟨header.key, payload, none⟩)
    (occupant : processor.slotMeta slot = requestMeta header.key payload channel)
    (finished : finish api processor slot status error message nowUs reserved .rx =
      some (view, after)) :
    Answers api header payload slot status (.resultReady view) after := by
  obtain ⟨number, encoded, dedup, _, _, coded, kept, rfl, rfl⟩ := finish_some api finished
  obtain ⟨⟨entry, before, _, written⟩, _⟩ := lawful.record _ _ _ _ kept
  cases held.symm.trans before
  rw [occupant] at coded
  refine ⟨channel, error, message, _, encoded, rfl, coded, Processor.bytesOf_fill .., ?_⟩
  rw [Processor.fill_dedup]
  exact written

/-- What a fresh request comes to: a ping by its id, a shell command, or a refusal. -/
inductive Decided (api : Api Cache) (processor : Processor Cache Seal) (header : Header)
    (payload : List UInt8) (request : CommandRequest) (slot : Nat) (reserved : Option UInt32) :
    Intake → Processor Cache Seal → Prop
  | ping (id : request.actionId = kPingActionId)
      (answer : reserved.isSome → Answers api header payload slot .success outcome after)
      (silent : reserved = none → outcome = .ignored) :
      Decided api processor header payload request slot reserved outcome after
  | shell (asks : AsksShell request) :
      Decided api processor header payload request slot reserved (.ready slot request.parameters)
        processor
  | refused (other : request.actionId ≠ kPingActionId) (asks : ¬AsksShell request)
      (answer : reserved.isSome → Answers api header payload slot .rejected outcome after ∨
        Answers api header payload slot .unsupported outcome after)
      (silent : reserved = none → outcome = .ignored) :
      Decided api processor header payload request slot reserved outcome after

private theorem decided_of_fresh (answers : AnswersRequests api fixed)
    {processor : Processor Cache Seal}
    (robot : processor.endpoint.isSome)
    (valid : ValidRequest api self header payload request)
    (held : api.dedup.entry processor.dedup slot = some ⟨header.key, payload, none⟩)
    (occupant : processor.slotMeta slot = requestMeta header.key payload channel)
    (same : intakeFresh api processor slot header payload nowUs reserved self =
      (outcome, after)) :
    Decided api processor header payload request slot reserved outcome after := by
  have records := answers.records
  obtain ⟨long, id, _, _⟩ := answers.decodes payload request valid.decoded
  have peeked : (processor.slotMeta slot).actionId = request.actionId := by
    rw [occupant, id]
    unfold kRequestPrefixSize at long
    exact if_pos (by omega)
  have room : fixed + 21 ≤ kMaxResultPayloadSize := answers.refusal
  -- A result whose message fits is recorded as long as there is a number for it.
  have tried {status : Status} {error : ErrorCode} {message : List UInt8}
      (fits : fixed + (cString message).length ≤ kMaxResultPayloadSize)
      (came : answered processor
        (finish api processor slot status error message nowUs reserved .rx) = (outcome, after)) :
      (reserved.isSome → Answers api header payload slot status outcome after) ∧
        (reserved = none → outcome = .ignored) := by
    have recorded := finish_isSome_iff records robot ⟨_, held, rfl⟩ status error message nowUs
      reserved .rx
    unfold answered at came
    split at came
    · rename_i view next finished
      cases came
      refine ⟨fun _ => answers_of_finish records.lawful held occupant finished, fun none => ?_⟩
      rw [finished, none] at recorded
      exact absurd (recorded.mp rfl).1 Bool.false_ne_true
    · rename_i failed
      cases came
      refine ⟨fun left => ?_, fun _ => rfl⟩
      rw [failed] at recorded
      exact absurd (recorded.mpr ⟨left, fits⟩) Bool.false_ne_true
  unfold intakeFresh at same
  rw [parseRequest_of_valid answers valid] at same
  dsimp only at same
  rw [peeked] at same
  split at same
  · rename_i ping
    obtain ⟨answer, silent⟩ := tried (Nat.le_trans (Nat.le_add_right fixed 21) room) same
    exact .ping ping answer silent
  · rename_i other
    split at same
    · rename_i error refused
      have asks : ¬AsksShell request := fun asks => by
        have ok := (copyShellCommand_ok_iff request _).mpr ⟨asks, rfl⟩
        rw [refused] at ok
        contradiction
      rcases copyShellCommand_error refused with rfl | rfl
      · have size : (cString (text (parseMessage .unsupportedAction))).length ≤ 21 := by decide
        obtain ⟨answer, silent⟩ := tried (by omega) same
        exact .refused other asks (fun left => .inr (answer left)) silent
      · have size : (cString (text (parseMessage .invalidShellText))).length ≤ 21 := by decide
        obtain ⟨answer, silent⟩ := tried (by omega) same
        exact .refused other asks (fun left => .inl (answer left)) silent
    · rename_i command copied
      cases same
      obtain ⟨asks, rfl⟩ := (copyShellCommand_ok_iff request command).mp copied
      exact .shell asks

/-- A new request with a valid envelope, for this robot, is taken as it should be exactly
if it is no ping of another version, and there is a number left for what is answered at
once. -/
theorem accepts_exactly_iff (answers : AnswersRequests api fixed)
    {processor : Processor Cache Seal} {self : Identity} (robot : processor.endpoint = some self)
    (valid : ValidRequest api self header payload request)
    (classified : api.dedup.classify processor.dedup header.key payload = (.fresh slot, dedup))
    (came : intake api processor false header payload nowUs reserved channel = (outcome, after)) :
    AcceptsExactly api header payload request slot outcome after ↔
      (request.actionId = kPingActionId → request.actionVersion = kPingActionVersion) ∧
        (reserved.isSome ∨ AsksShell request) := by
  have fits : heard processor false header payload = true :=
    heard_iff.mpr ⟨rfl, by rw [robot]; rfl, valid.type, valid.object, valid.admissible⟩
  rw [intake_fresh robot fits classified] at came
  obtain ⟨_, _, _, _, placed, _⟩ := answers.records.lawful.fresh _ _ _ _ _ classified
  have decided := decided_of_fresh answers (by rw [Processor.reserve, robot]; rfl) valid placed
    (Processor.reserve_slotMeta ..) came
  have shellOnly (asks : AsksShell request) : request.actionId ≠ kPingActionId := by
    rw [asks.1.1]
    decide
  constructor
  · intro exactly
    cases decided with
    | ping id answer silent =>
      have noShell (asks : AsksShell request) := shellOnly asks id
      cases left : reserved with
      | some number =>
        have asked := exactly.ping.mp (answer (by rw [left]; rfl))
        exact ⟨fun _ => asked.2, .inl rfl⟩
      | none =>
        have ignored := silent left
        have none (status : Status) :
            ¬Answers api header payload slot status outcome after := fun answer => by
          obtain ⟨view, result⟩ := view_of_answers answer
          cases ignored.symm.trans result
        refine absurd (exactly.other noShell fun asked => none _ (exactly.ping.mpr asked)).2 ?_
        rintro (answer | answer)
        · exact none _ answer
        · exact none _ answer
    | shell asks => exact ⟨fun id => absurd id (shellOnly asks), .inr asks⟩
    | refused other asks answer silent =>
      refine ⟨fun id => absurd id other, .inl ?_⟩
      cases left : reserved with
      | some number => rfl
      | none =>
        have refusal := (exactly.other asks fun asked => other asked.1).2
        obtain ⟨view, result⟩ := refusal.elim view_of_answers view_of_answers
        cases (silent left).symm.trans result
  · rintro ⟨version, left⟩
    cases decided with
    | ping id answer silent =>
      have noShell (asks : AsksShell request) := shellOnly asks id
      have answered := answer (left.resolve_right noShell)
      obtain ⟨view, rfl⟩ := view_of_answers answered
      refine ⟨fun command => ?_, ?_, fun _ noPing => absurd ⟨id, version id⟩ noPing⟩
      · constructor
        · exact fun ready => by contradiction
        · exact fun asks => absurd asks.1 noShell
      · exact iff_of_true (answer (left.resolve_right noShell)) ⟨id, version id⟩
    | shell asks =>
      refine ⟨fun command => ?_, ?_, fun noShell => absurd asks noShell⟩
      · simp [asks, eq_comm]
      · refine iff_of_false ?_ fun asked => shellOnly asks asked.1
        intro answer
        obtain ⟨view, result⟩ := view_of_answers answer
        contradiction
    | refused other asks answer silent =>
      have refusal := answer (left.resolve_right asks)
      obtain ⟨view, rfl⟩ := refusal.elim view_of_answers view_of_answers
      refine ⟨fun command => ?_, ?_, fun _ _ => ⟨fun _ _ => by simp, refusal⟩⟩
      · exact iff_of_false (by simp) fun both => asks both.1
      · refine iff_of_false (fun success => ?_) fun asked => other asked.1
        rcases refusal with answer | answer
        · exact absurd (answers_unique answers success answer) (by decide)
        · exact absurd (answers_unique answers success answer) (by decide)

private theorem status_of_commandResultBytes (result : CommandResult) :
    (commandResultBytes result)[16]? = some result.status := by
  simp [commandResultBytes, List.getElem?_append, length_toBytes]

private theorem referenceApi_answersRequests : AnswersRequests referenceApi 26 where
  records := referenceApi_recordsResults
  decodes := by
    intro payload request decoded
    simp only [referenceApi, decodeCommandRequest] at decoded
    split at decoded
    · contradiction
    rename_i long
    repeat' split at decoded
    all_goals first | contradiction | cases decoded
    exact ⟨Nat.not_lt.mp long, rfl, rfl, rfl⟩
  tells := by
    intro one two capacity bytes first second
    simp only [referenceApi, encodeCommandResult, Option.ite_none_right_eq_some,
      Option.some.injEq] at first second
    have status := status_of_commandResultBytes one
    rw [first.2, ← second.2, status_of_commandResultBytes] at status
    exact (Option.some.inj status).symm
  refusal := by decide

theorem accepts_exactly_help : ∃ outcome after,
    intake referenceApi bench.processor false helpHeader helpRequest 10 (some 1) .cLink =
      (outcome, after) ∧
    AcceptsExactly referenceApi helpHeader helpRequest ⟨1, 2, 1, 1, text "help"⟩ 0 outcome
      after := by
  have valid : ValidRequest referenceApi ⟨1, 2⟩ helpHeader helpRequest
      ⟨1, 2, 1, 1, text "help"⟩ :=
    ⟨rfl, rfl, rfl, ⟨rfl, rfl⟩, ⟨by decide, by decide, by decide, by decide⟩, rfl, ⟨rfl, rfl⟩⟩
  have came : intake referenceApi bench.processor false helpHeader helpRequest 10 (some 1)
    .cLink = (_, _) := rfl
  exact ⟨_, _, came, (accepts_exactly_iff referenceApi_answersRequests rfl valid rfl came).mpr
    ⟨by decide, .inl rfl⟩⟩

/-- A request for version 7 of the ping. -/
def laterPingRequest : List UInt8 :=
  toBytes 4 1 ++ toBytes 4 2 ++ toBytes 2 2 ++ toBytes 2 7 ++ toBytes 4 0 ++ toBytes 4 0

/-- It is answered with success. -/
theorem other_ping_succeeds : ¬ ∀ (payload : List UInt8) (request : CommandRequest)
    (outcome : Intake) (after : Processor (RingCache 16) Unit),
    ValidRequest referenceApi ⟨1, 2⟩ helpHeader payload request →
    intake referenceApi bench.processor false helpHeader payload 10 (some 1) .cLink =
      (outcome, after) →
    AcceptsExactly referenceApi helpHeader payload request 0 outcome after := by
  intro every
  have valid : ValidRequest referenceApi ⟨1, 2⟩ helpHeader laterPingRequest ⟨1, 2, 2, 7, []⟩ :=
    ⟨rfl, rfl, rfl, ⟨rfl, rfl⟩, ⟨by decide, by decide, by decide, by decide⟩, rfl, ⟨rfl, rfl⟩⟩
  have exactly := every laterPingRequest ⟨1, 2, 2, 7, []⟩ _ _ valid rfl
  have success := exactly.ping.mp ⟨.cLink, .none, [], _, _, rfl, rfl, rfl, rfl⟩
  exact absurd success.2 (by decide)

end BallyOS.Command
