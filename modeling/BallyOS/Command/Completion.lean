import BallyOS.Command.Replay

/-! Whether a command that ran leaves a result behind. `complete` hands the
whole captured output to the codec, which refuses a message that does not fit
`kMaxResultPayloadSize`; the slot then stays in flight. Runs whose completions
avoid that leave no finished command in flight. -/
namespace BallyOS.Command
open Btp Library

variable {Cache Seal : Type} {api : Api Cache} {fixed : Nat}

/-- A completion that can be recorded: the endpoint has a sequence, and the
output of a successful command fits beside the fixed part of the result. -/
def Completes (fixed : Nat) (shellStatus : UInt8) (message : List UInt8)
    (reserved : Option UInt32) : Prop :=
  reserved.isSome ∧
    (shellStatus = 0 → fixed + (cString message).length ≤ kMaxResultPayloadSize)

/-- The slot's request was classified fresh and has no result. -/
def InFlight (api : Api Cache) (dedup : Cache) (slot : Nat) : Prop :=
  ∃ entry, api.dedup.entry dedup slot = some entry ∧ entry.result = none

/-- What the codec and the cache promise about recording a result. -/
structure RecordsResults (api : Api Cache) (fixed : Nat) : Prop where
  lawful : api.dedup.Lawful kCacheCapacity
  within : api.EncodesWithin
  exact : api.EncodesExactly fixed
  failure : fixed + (text "shell command failed").length ≤ kMaxResultPayloadSize
  inFlight : api.dedup.RecordsInFlight (kReplayPrefix + kMaxResultPayloadSize)

/-- A result for a slot in flight is refused only for its size or for lack of
a sequence. -/
theorem finish_isSome_iff (records : RecordsResults api fixed)
    {processor : Processor Cache Seal} (robot : processor.endpoint.isSome)
    (inFlight : InFlight api processor.dedup slot) (status : Status) (error : ErrorCode)
    (message : List UInt8) (nowUs : UInt64) (reserved : Option UInt32) (target : ViewBuffer) :
    (finish api processor slot status error message nowUs reserved target).isSome ↔
      reserved.isSome ∧ fixed + (cString message).length ≤ kMaxResultPayloadSize := by
  obtain ⟨entry, held, unanswered⟩ := inFlight
  have inside := records.lawful.entryWithin _ _ _ held
  have coded := records.exact (commandResult (processor.slotMeta slot) status error message)
    kMaxResultPayloadSize
  constructor
  · intro finished
    obtain ⟨⟨view, after⟩, made⟩ := Option.isSome_iff_exists.mp finished
    obtain ⟨number, payload, dedup, left, _, encoded, _⟩ := finish_some api made
    exact ⟨left ▸ rfl, coded.mp (Option.isSome_iff_exists.mpr ⟨payload, encoded⟩)⟩
  · rintro ⟨left, fits⟩
    obtain ⟨number, rfl⟩ := Option.isSome_iff_exists.mp left
    obtain ⟨payload, encoded⟩ := Option.isSome_iff_exists.mp (coded.mpr fits)
    have short : (packResult number nowUs payload).length ≤
        kReplayPrefix + kMaxResultPayloadSize := by
      have bound := records.within _ _ _ encoded
      simp only [packResult, List.length_append, length_toBytes, kReplayPrefix]
      omega
    obtain ⟨dedup, kept⟩ := Option.isSome_iff_exists.mp
      (records.inFlight _ slot entry (packResult number nowUs payload) held unanswered short)
    have usable : ¬(processor.endpoint = none ∨ slot ≥ kCacheCapacity) := by
      rintro (unset | outside)
      · simp [unset] at robot
      · omega
    simp [finish, usable, encodeResult, encoded, kept]

/-- `complete` records a result for a slot in flight exactly when it can be. -/
theorem complete_isSome_iff (records : RecordsResults api fixed)
    {processor : Processor Cache Seal} (robot : processor.endpoint.isSome)
    (inFlight : InFlight api processor.dedup slot) (shellStatus : UInt8) (nowUs : UInt64)
    (message : List UInt8) (reserved : Option UInt32) :
    (complete api processor slot shellStatus nowUs message reserved).isSome ↔
      Completes fixed shellStatus message reserved := by
  have inside : ¬slot ≥ kCacheCapacity := by
    obtain ⟨entry, held, _⟩ := inFlight
    exact Nat.not_le.mpr (records.lawful.entryWithin _ _ _ held)
  have said : cString (text "shell command failed") = text "shell command failed" := by decide
  rw [complete, if_neg inside]
  by_cases success : shellStatus = 0
  · rw [if_pos success, finish_isSome_iff records robot inFlight]
    simp [Completes, success]
  · rw [if_neg success, finish_isSome_iff records robot inFlight, said]
    simp [Completes, success, records.failure]

/-- Recording a result leaves the other entries in flight as they were. -/
theorem inFlight_before_finish (lawful : api.dedup.Lawful kCacheCapacity)
    {processor : Processor Cache Seal}
    (finished : finish api processor slot status error message nowUs reserved target =
      some (view, after))
    (held : api.dedup.entry after.dedup another = some entry) (unanswered : entry.result = none) :
    another ≠ slot ∧ api.dedup.entry processor.dedup another = some entry := by
  obtain ⟨number, payload, dedup, _, _, _, kept, _, rfl⟩ := finish_some api finished
  rw [Processor.fill_dedup] at held
  obtain ⟨⟨old, _, _, written⟩, others, _⟩ := lawful.record _ _ _ _ kept
  have elsewhere : another ≠ slot := by
    intro here
    subst here
    cases written.symm.trans held
    cases unanswered
  exact ⟨elsewhere, (others another elsewhere).symm.trans held⟩

private theorem seen_after_finish (lawful : api.dedup.Lawful kCacheCapacity)
    {processor : Processor Cache Seal}
    (finished : finish api processor slot status error message nowUs reserved target =
      some (view, after))
    (seen : api.dedup.seen processor.dedup key) : api.dedup.seen after.dedup key := by
  obtain ⟨number, payload, dedup, _, _, _, kept, _, rfl⟩ := finish_some api finished
  rw [Processor.fill_dedup]
  exact (lawful.record _ _ _ _ kept).2.2 key seen

/-- An arrival puts only an identity in flight that was never seen. -/
theorem inFlight_before_intake (lawful : api.dedup.Lawful kCacheCapacity)
    {processor : Processor Cache Seal}
    (came : intake api processor contended header payload nowUs reserved channel =
      (outcome, after))
    (held : api.dedup.entry after.dedup slot = some entry) (unanswered : entry.result = none) :
    api.dedup.entry processor.dedup slot = some entry ∨
      ¬api.dedup.seen processor.dedup entry.key := by
  have placed : ∀ {there dedup},
      api.dedup.classify processor.dedup header.key payload = (.fresh there, dedup) →
      api.dedup.entry dedup slot = some entry →
      api.dedup.entry processor.dedup slot = some entry ∨
        ¬api.dedup.seen processor.dedup entry.key := by
    intro there dedup classified now
    obtain ⟨_, unseen, _, _, occupant, others⟩ := lawful.fresh _ _ _ _ _ classified
    by_cases here : slot = there
    · subst here
      cases occupant.symm.trans now
      exact .inr unseen
    · exact .inl ((others slot here).symm.trans now)
  cases arrived_of_intake came with
  | dropped => exact .inl held
  | known _ classified other same =>
    rw [known_dedup same] at held
    exact .inl ((lawful.notFresh _ _ _ _ _ classified other slot).symm.trans held)
  | handedOut _ classified => exact placed classified held
  | answered _ classified finished =>
    exact placed classified (inFlight_before_finish lawful finished held unanswered).2
  | unanswered _ classified => exact placed classified held

private theorem seen_after_intake (lawful : api.dedup.Lawful kCacheCapacity)
    {processor : Processor Cache Seal}
    (came : intake api processor contended header payload nowUs reserved channel =
      (outcome, after))
    (seen : api.dedup.seen processor.dedup key) : api.dedup.seen after.dedup key := by
  cases arrived_of_intake came with
  | dropped => exact seen
  | known _ classified _ same =>
    rw [known_dedup same]
    exact lawful.seenStays _ _ _ _ _ key classified seen
  | handedOut _ classified => exact lawful.seenStays _ _ _ _ _ key classified seen
  | answered _ classified finished =>
    exact seen_after_finish lawful finished (lawful.seenStays _ _ _ _ _ key classified seen)
  | unanswered _ classified => exact lawful.seenStays _ _ _ _ _ key classified seen

/-- No command that ran is in flight. -/
structure Settled (api : Api Cache) (world : World Cache Seal) : Prop where
  agrees : Agrees api world
  finishedSeen : ∀ key ∈ world.finished, api.dedup.seen world.processor.dedup key
  answered : ∀ slot entry, api.dedup.entry world.processor.dedup slot = some entry →
    entry.result = none → entry.key ∉ world.finished

/-- The condition on a run: each completion of a slot in flight can be recorded. -/
def Recordable (api : Api Cache) (fixed : Nat) (world : World Cache Seal) : Event → Prop
  | .complete cacheSlot shellStatus _ message reserved =>
    InFlight api world.processor.dedup cacheSlot → Completes fixed shellStatus message reserved
  | _ => True

private theorem settled_intake (lawful : api.dedup.Lawful kCacheCapacity) {world : World Cache Seal}
    (settled : Settled api world) :
    Settled api (intakeStep api world contended header payload nowUs reserved channel) := by
  have agrees := agrees_intake lawful settled.agrees contended header payload nowUs reserved channel
  have same := intakeStep_finished api world contended header payload nowUs reserved channel
  have moved := intakeStep_processor api world contended header payload nowUs reserved channel
  cases came : intake api world.processor contended header payload nowUs reserved channel with
  | mk outcome after =>
    rw [came] at moved
    refine ⟨agrees, ?_, ?_⟩
    · intro key member
      rw [same] at member
      rw [moved]
      exact seen_after_intake lawful came (settled.finishedSeen key member)
    · intro slot entry held unanswered
      rw [moved] at held
      rw [same]
      rcases inFlight_before_intake lawful came held unanswered with before | unseen
      · exact settled.answered slot entry before unanswered
      · exact fun member => unseen (settled.finishedSeen entry.key member)

private theorem settled_rejectBusy (lawful : api.dedup.Lawful kCacheCapacity)
    {world next : World Cache Seal} (settled : Settled api world)
    (stepped : step api world (.rejectBusy cacheSlot nowUs reserved) = some next) :
    Settled api next := by
  have agrees := agrees_step lawful settled.agrees stepped
  cases stepped
  cases rejected : rejectBusy api world.processor cacheSlot nowUs reserved with
  | none => simpa [finishStep, rejected] using settled
  | some made =>
    obtain ⟨view, after⟩ := made
    obtain ⟨status, error, said, finished⟩ := finish_of_rejectBusy rejected
    simp only [finishStep, rejected] at agrees ⊢
    refine ⟨agrees, ?_, ?_⟩
    · intro key member
      exact seen_after_finish lawful finished (settled.finishedSeen key member)
    · intro slot entry held unanswered
      have before := (inFlight_before_finish lawful finished held unanswered).2
      exact settled.answered slot entry before unanswered

private theorem settled_complete (records : RecordsResults api fixed)
    {world next : World Cache Seal}
    (settled : Settled api world)
    (recordable : Recordable api fixed world
      (.complete cacheSlot shellStatus nowUs message reserved))
    (stepped : step api world (.complete cacheSlot shellStatus nowUs message reserved) =
      some next) : Settled api next := by
  have lawful := records.lawful
  have agrees := agrees_step lawful settled.agrees stepped
  cases stepped
  have ran : ∀ slot entry, api.dedup.entry world.processor.dedup slot = some entry →
      slot ≠ cacheSlot → entry.key ∉ holder api world.processor cacheSlot := by
    intro slot entry held elsewhere member
    unfold holder at member
    split at member
    · cases member
    · rename_i other occupant
      have same := List.mem_singleton.mp member
      exact elsewhere (settled.agrees.2.apart slot cacheSlot entry other held occupant same)
  have seen : ∀ key ∈ holder api world.processor cacheSlot,
      api.dedup.seen world.processor.dedup key := by
    intro key member
    unfold holder at member
    split at member
    · cases member
    · rename_i other occupant
      exact List.mem_singleton.mp member ▸ (settled.agrees.2.occupied cacheSlot other occupant).2.1
  cases completed : complete api world.processor cacheSlot shellStatus nowUs message reserved with
  | none =>
    simp only [finishStep, completed] at agrees ⊢
    refine ⟨agrees, ?_, ?_⟩
    · intro key member
      rcases List.mem_append.mp member with old | new
      · exact settled.finishedSeen key old
      · exact seen key new
    · intro slot entry held unanswered member
      -- a completion that failed was not for a slot in flight
      have elsewhere : slot ≠ cacheSlot := by
        rintro rfl
        have inFlight : InFlight api world.processor.dedup slot := ⟨entry, held, unanswered⟩
        have done := (complete_isSome_iff records settled.agrees.1 inFlight shellStatus nowUs
          message reserved).mpr (recordable inFlight)
        simp [completed] at done
      rcases List.mem_append.mp member with old | new
      · exact settled.answered slot entry held unanswered old
      · exact ran slot entry held elsewhere new
  | some made =>
    obtain ⟨view, after⟩ := made
    obtain ⟨status, error, said, finished⟩ := finish_of_complete completed
    simp only [finishStep, completed] at agrees ⊢
    refine ⟨agrees, ?_, ?_⟩
    · intro key member
      apply seen_after_finish lawful finished
      rcases List.mem_append.mp member with old | new
      · exact settled.finishedSeen key old
      · exact seen key new
    · intro slot entry held unanswered member
      obtain ⟨elsewhere, before⟩ := inFlight_before_finish lawful finished held unanswered
      rcases List.mem_append.mp member with old | new
      · exact settled.answered slot entry before unanswered old
      · exact ran slot entry before elsewhere new

private theorem settled_step (records : RecordsResults api fixed) {world next : World Cache Seal}
    (settled : Settled api world) (recordable : Recordable api fixed world event)
    (stepped : step api world event = some next) : Settled api next := by
  cases event with
  | intake contended header payload nowUs reserved channel =>
    cases stepped
    exact settled_intake records.lawful settled
  | rejectBusy cacheSlot nowUs reserved => exact settled_rejectBusy records.lawful settled stepped
  | complete cacheSlot shellStatus nowUs message reserved =>
    exact settled_complete records settled recordable stepped

private theorem settled_start (lawful : api.dedup.Lawful kCacheCapacity) (robot : Identity)
    (sealLink sealEndpoint : Option Seal) :
    Settled api (World.start (Processor.configured api robot sealLink sealEndpoint)) := by
  refine ⟨agrees_start lawful robot sealLink sealEndpoint, ?_, ?_⟩
  · intro key member
    cases member
  · intro slot entry held
    cases (lawful.initialEntry slot).symm.trans held

/-- In a run whose completions can be recorded no command that ran is in
flight, its identical request is answered by replay while its entry is cached,
and a further completion succeeds exactly when it can be recorded. -/
theorem executed_commands_are_answered (api : Api Cache) (fixed : Nat)
    (records : RecordsResults api fixed) (robot : Identity) (sealLink sealEndpoint : Option Seal)
    (events : List Event) (world : World Cache Seal)
    (meets : Along (step api) (Recordable api fixed)
      (World.start (Processor.configured api robot sealLink sealEndpoint)) events)
    (ran : run (step api) (World.start (Processor.configured api robot sealLink sealEndpoint))
      events = some world) :
    (∀ slot entry, api.dedup.entry world.processor.dedup slot = some entry →
      entry.result = none → entry.key ∉ world.finished) ∧
    (∀ slot entry, api.dedup.entry world.processor.dedup slot = some entry →
      entry.key ∈ world.finished → ∀ header nowUs reserved channel, header.type = .command →
        header.objectId = kCommandRequestObjectId → header.key = entry.key →
        ∃ view after, intake api world.processor false header entry.request nowUs reserved
          channel = (.resultReady view, after)) ∧
    ∀ slot, InFlight api world.processor.dedup slot → ∀ shellStatus nowUs message reserved,
      (complete api world.processor slot shellStatus nowUs message reserved).isSome ↔
        Completes fixed shellStatus message reserved := by
  have settled : Settled api world :=
    run_invariant_along (fun holds met stepped => settled_step records holds met stepped)
      (settled_start records.lawful robot sealLink sealEndpoint) meets ran
  refine ⟨settled.answered, ?_, ?_⟩
  · intro slot entry held member header nowUs reserved channel type object identity
    cases done : entry.result with
    | none => exact absurd member (settled.answered slot entry held done)
    | some bytes =>
      obtain ⟨result, written, key, request, _⟩ :=
        settled.agrees.2.stored slot entry bytes held done
      obtain ⟨view, after, came, _⟩ := replays records.lawful records.within settled.agrees
        written held key.symm type object (identity.trans key.symm) nowUs reserved channel
      exact ⟨view, after, request ▸ came⟩
  · intro slot inFlight shellStatus nowUs message reserved
    exact complete_isSome_iff records settled.agrees.1 inFlight shellStatus nowUs message reserved

theorem referenceApi_recordsResults : RecordsResults referenceApi 26 where
  lawful := ringCache_lawful 16
  within := referenceApi_encodesWithin
  exact := referenceApi_encodesExactly
  failure := by decide
  inFlight := ringCache_recordsInFlight 16 _

theorem answered_after_completed_trace : ∃ world, run (step referenceApi) bench completedTrace =
      some world ∧ world.finished = [helpHeader.key] ∧
    ∃ view after, intake referenceApi world.processor false helpHeader helpRequest 20 (some 4)
      .cLink = (.resultReady view, after) := by
  have meets : Along (step referenceApi) (Recordable referenceApi 26) bench completedTrace := by
    refine along_of_step trivial rfl (along_of_step trivial rfl (along_of_step ?_ rfl trivial))
    exact fun _ => ⟨rfl, fun _ => by decide⟩
  obtain ⟨_, replay, _⟩ := executed_commands_are_answered referenceApi 26
    referenceApi_recordsResults ⟨1, 2⟩ none none completedTrace _ meets rfl
  exact ⟨_, rfl, rfl, replay 0 ⟨helpHeader.key, helpRequest, _⟩ rfl (by decide) helpHeader 20
    (some 4) .cLink rfl rfl rfl⟩

/-- One byte more than fits beside the fixed part of a result. -/
def longOutput : List UInt8 := List.replicate 103 65

/-- A request is handed out and its command succeeds with that output. -/
def longOutputTrace : List Event :=
  [.intake false helpHeader helpRequest 10 (some 1) .cLink, .complete 0 0 12 longOutput (some 3)]

set_option maxRecDepth 4000 in
/-- The completion of a command with a long output fails and leaves its request
in flight, although the command ran. -/
theorem long_output_leaves_request_in_flight : ¬∀ events world,
    run (step referenceApi) bench events = some world →
      ∀ slot entry, referenceApi.dedup.entry world.processor.dedup slot = some entry →
        entry.result = none → entry.key ∉ world.finished := by
  intro every
  have settled := every longOutputTrace _ rfl 0 ⟨helpHeader.key, helpRequest, none⟩ rfl rfl
  exact settled (by decide)

end BallyOS.Command
