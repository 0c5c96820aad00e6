import BallyOS.Command.History
import BallyOS.Btp.Reference

/-! Each identity runs at most once, and its recorded result is what every
later identical request is answered with, byte for byte, for as long as its
entry is cached. A conflicting request neither runs nor touches the entry. -/
namespace BallyOS.Command
open Btp Library

variable {Cache Seal : Type} {api : Api Cache}

/-- The agreement of cache, slots and history, for a whole world. -/
def Agrees (api : Api Cache) (world : World Cache Seal) : Prop :=
  world.processor.endpoint.isSome ∧
    Consistent api world.processor.dedup world.processor.slotMeta world.ready world.recorded

/-- A finished slot's record is the one the observer writes down. -/
theorem agrees_finish (lawful : api.dedup.Lawful kCacheCapacity)
    {processor : Processor Cache Seal} {ready : List DedupKey} {recorded : List Recorded}
    (consistent : Consistent api processor.dedup processor.slotMeta ready recorded)
    (finished : finish api processor slot status error message nowUs reserved target =
      some (view, after)) :
    ∃ entry, api.dedup.entry processor.dedup slot = some entry ∧
      after.endpoint = processor.endpoint ∧
      Consistent api after.dedup after.slotMeta ready (recorded ++
        [⟨entry.key, entry.request, view.sequence, view.timestampUs, after.bytesOf view⟩]) := by
  obtain ⟨number, payload, dedup, _, _, coded, kept, rfl, rfl⟩ := finish_some api finished
  obtain ⟨entry, found, _, _, recordedNow⟩ := consistent_record lawful consistent coded kept
  refine ⟨entry, found, Processor.fill_endpoint _, ?_⟩
  rw [Processor.bytesOf_fill, Processor.fill_dedup, Processor.fill_slotMeta]
  exact recordedNow

private theorem agrees_finishStep (lawful : api.dedup.Lawful kCacheCapacity)
    {world : World Cache Seal} (agrees : Agrees api world)
    (finishes : ∀ view after, result = some (view, after) → ∃ status error message nowUs reserved
      target, finish api world.processor slot status error message nowUs reserved target =
        some (view, after)) :
    Agrees api (finishStep api world slot result) := by
  unfold finishStep
  split
  · rename_i view after
    obtain ⟨_, _, _, _, _, _, finished⟩ := finishes view after rfl
    obtain ⟨entry, found, robot, consistent⟩ := agrees_finish lawful agrees.2 finished
    refine ⟨robot ▸ agrees.1, ?_⟩
    simpa [record, found] using consistent
  · exact agrees

theorem finish_of_complete {processor : Processor Cache Seal}
    (completed : complete api processor slot shellStatus nowUs message reserved =
      some (view, after)) :
    ∃ status error said, finish api processor slot status error said nowUs reserved .shell =
      some (view, after) := by
  unfold complete at completed
  split at completed
  · cases completed
  split at completed
  · exact ⟨_, _, _, completed⟩
  · exact ⟨_, _, _, completed⟩

theorem finish_of_rejectBusy {processor : Processor Cache Seal}
    (rejected : rejectBusy api processor slot nowUs reserved = some (view, after)) :
    ∃ status error said, finish api processor slot status error said nowUs reserved .rx =
      some (view, after) := by
  unfold rejectBusy at rejected
  split at rejected
  · cases rejected
  · exact ⟨_, _, _, rejected⟩

theorem freshSlot_of_classify {processor : Processor Cache Seal}
    (fits : heard processor contended header payload = true)
    (classified : api.dedup.classify processor.dedup header.key payload = (.fresh slot, dedup)) :
    freshSlot api processor contended header payload = some slot := by
  simp [freshSlot, fits, classified]

theorem freshSlot_of_other {processor : Processor Cache Seal}
    (classified : api.dedup.classify processor.dedup header.key payload = (verdict, dedup))
    (other : ∀ slot, verdict ≠ .fresh slot) :
    freshSlot api processor contended header payload = none := by
  cases verdict with
  | fresh slot => exact absurd rfl (other slot)
  | _ => simp [freshSlot, classified]

theorem agrees_intake (lawful : api.dedup.Lawful kCacheCapacity)
    {world : World Cache Seal} (agrees : Agrees api world) (contended : Bool) (header : Header)
    (payload : List UInt8) (nowUs : UInt64) (reserved : Option UInt32) (channel : Channel) :
    Agrees api (intakeStep api world contended header payload nowUs reserved channel) := by
  obtain ⟨set, consistent⟩ := agrees
  unfold intakeStep
  cases came : intake api world.processor contended header payload nowUs reserved channel with
  | mk outcome after =>
    dsimp only
    cases arrived_of_intake came with
    | dropped => exact ⟨set, consistent⟩
    | known fits classified other same =>
      have kept := consistent_notFresh lawful consistent classified other
      have agrees : Agrees api { world with processor := after } := by
        refine ⟨known_endpoint same ▸ set, ?_⟩
        rwa [known_dedup same, known_slotMeta same]
      cases outcome with
      | ready slot command => exact absurd rfl ((known_fill same).1 slot command)
      | resultReady view => simpa [freshSlot_of_other classified other] using agrees
      | duplicateInProgress | ignored => exact agrees
    | handedOut fits classified =>
      obtain ⟨_, _, _, _, admissible⟩ := heard_iff.mp fits
      obtain ⟨new, kept⟩ := consistent_fresh lawful consistent admissible classified
      have seen := (lawful.fresh _ _ _ _ _ classified).2.2.1
      exact ⟨set, consistent_ready kept new seen⟩
    | answered fits classified finished =>
      obtain ⟨_, _, _, _, admissible⟩ := heard_iff.mp fits
      obtain ⟨_, kept⟩ := consistent_fresh lawful consistent admissible classified
      have placed := (lawful.fresh _ _ _ _ _ classified).2.2.2.2.1
      obtain ⟨entry, found, robot, answeredNow⟩ := agrees_finish lawful kept finished
      cases placed.symm.trans found
      rw [freshSlot_of_classify fits classified]
      exact ⟨robot ▸ set, answeredNow⟩
    | unanswered fits classified =>
      obtain ⟨_, _, _, _, admissible⟩ := heard_iff.mp fits
      exact ⟨set, (consistent_fresh lawful consistent admissible classified).2⟩

theorem agrees_step (lawful : api.dedup.Lawful kCacheCapacity) {world next : World Cache Seal}
    (agrees : Agrees api world) (stepped : step api world event = some next) :
    Agrees api next := by
  cases event with
  | intake contended header payload nowUs reserved channel =>
    cases stepped
    exact agrees_intake lawful agrees contended header payload nowUs reserved channel
  | rejectBusy cacheSlot nowUs reserved =>
    cases stepped
    refine agrees_finishStep lawful agrees fun view after rejected => ?_
    obtain ⟨status, error, said, finished⟩ := finish_of_rejectBusy rejected
    exact ⟨status, error, said, nowUs, reserved, .rx, finished⟩
  | complete cacheSlot shellStatus nowUs message reserved =>
    cases stepped
    refine agrees_finishStep lawful agrees fun view after completed => ?_
    obtain ⟨status, error, said, finished⟩ := finish_of_complete completed
    exact ⟨status, error, said, nowUs, reserved, .shell, finished⟩

/-- The stored copy unpacks to the frame it was packed from. -/
theorem replayView_packResult (processor : Processor Cache Seal) (number : UInt32)
    (nowUs : UInt64) (payload : List UInt8) (channel : Channel)
    (fits : payload.length ≤ kMaxResultPayloadSize) :
    replayView processor (packResult number nowUs payload) channel =
      (⟨number, nowUs, some .rx, payload.length, channel⟩, processor.fill .rx payload) := by
  have numberSize := length_toBytes 4 number.toNat
  have timeSize := length_toBytes 8 nowUs.toNat
  have size : (packResult number nowUs payload).length = kReplayPrefix + payload.length := by
    simp only [packResult, List.length_append, numberSize, timeSize, kReplayPrefix]
  have first : (packResult number nowUs payload).take 4 = toBytes 4 number.toNat := by
    simp [packResult, numberSize]
  have second : ((packResult number nowUs payload).drop 4).take 8 = toBytes 8 nowUs.toNat := by
    simp [packResult, numberSize, timeSize]
  have third : (packResult number nowUs payload).drop kReplayPrefix = payload :=
    List.drop_left' (by simp [kReplayPrefix])
  have kept : min ((packResult number nowUs payload).length - kReplayPrefix)
      kMaxResultPayloadSize = payload.length := by omega
  have numberBack : UInt32.ofNat (ofBytes (toBytes 4 number.toNat)) = number := by
    have small := number.toNat_lt
    rw [ofBytes_toBytes, Nat.mod_eq_of_lt (by omega), UInt32.ofNat_toNat]
  have timeBack : UInt64.ofNat (ofBytes (toBytes 8 nowUs.toNat)) = nowUs := by
    have small := nowUs.toNat_lt
    rw [ofBytes_toBytes, Nat.mod_eq_of_lt (by omega), UInt64.ofNat_toNat]
  have enough : ¬(packResult number nowUs payload).length < kReplayPrefix := by omega
  simp only [replayView, if_neg enough, first, second, third, kept, numberBack, timeBack,
    List.take_length]

/-- An identity the history or the cache has heard of. -/
def World.Knows (api : Api Cache) (world : World Cache Seal) (key : DedupKey) : Prop :=
  key ∈ world.ready ∨ (∃ result ∈ world.recorded, result.key = key) ∨
    ∃ slot entry, api.dedup.entry world.processor.dedup slot = some entry ∧ entry.key = key

/-- A known identity is never fresh again: its request is not handed out and no
entry moves, whatever bytes it brings. -/
theorem known_stays (lawful : api.dedup.Lawful kCacheCapacity) {world : World Cache Seal}
    (agrees : Agrees api world) (known : world.Knows api header.key)
    (came : intake api world.processor contended header payload nowUs reserved channel =
      (outcome, after)) :
    (∀ slot command, outcome ≠ .ready slot command) ∧
      ∀ slot, api.dedup.entry after.dedup slot = api.dedup.entry world.processor.dedup slot := by
  have seen : api.dedup.seen world.processor.dedup header.key := by
    rcases known with handed | ⟨result, member, same⟩ | ⟨slot, entry, held, same⟩
    · exact agrees.2.readySeen header.key handed
    · exact same ▸ agrees.2.recordedSeen result member
    · exact same ▸ (agrees.2.occupied slot entry held).2.1
  cases arrived_of_intake came with
  | dropped => exact ⟨by simp, fun _ => rfl⟩
  | known _ classified other same =>
    refine ⟨(known_fill same).1, fun slot => ?_⟩
    rw [known_dedup same]
    exact lawful.notFresh _ _ _ _ _ classified other slot
  | handedOut _ classified => exact absurd seen (lawful.fresh _ _ _ _ _ classified).2.1
  | answered _ classified => exact absurd seen (lawful.fresh _ _ _ _ _ classified).2.1
  | unanswered _ classified => exact absurd seen (lawful.fresh _ _ _ _ _ classified).2.1

/-- A cached entry whose identity was answered stores that very answer. -/
theorem stored_of_recorded {world : World Cache Seal} (agrees : Agrees api world)
    (member : result ∈ world.recorded)
    (held : api.dedup.entry world.processor.dedup slot = some entry)
    (same : entry.key = result.key) :
    entry.request = result.request ∧
      entry.result = some (packResult result.sequence result.timestampUs result.payload) := by
  cases done : entry.result with
  | none => exact absurd same.symm (agrees.2.running slot entry held done result member)
  | some bytes =>
    obtain ⟨other, written, key, request, packed⟩ := agrees.2.stored slot entry bytes held done
    have one : other = result :=
      List.inj_on_of_nodup_map agrees.2.recordedOnce written member (key.trans same)
    subst one
    exact ⟨request.symm, by rw [packed]⟩

/-- While the entry is cached, the identical request gets the recorded frame. -/
theorem replays (lawful : api.dedup.Lawful kCacheCapacity) (within : api.EncodesWithin)
    {world : World Cache Seal} (agrees : Agrees api world) (member : result ∈ world.recorded)
    (held : api.dedup.entry world.processor.dedup slot = some entry)
    (same : entry.key = result.key) (type : header.type = .command)
    (object : header.objectId = kCommandRequestObjectId) (identity : header.key = result.key)
    (nowUs : UInt64) (reserved : Option UInt32) (channel : Channel) :
    ∃ view after,
      intake api world.processor false header result.request nowUs reserved channel =
        (.resultReady view, after) ∧
      view.sequence = result.sequence ∧ view.timestampUs = result.timestampUs ∧
      view.channel = channel ∧ after.bytesOf view = result.payload := by
  obtain ⟨request, done⟩ := stored_of_recorded agrees member held same
  obtain ⟨_, _, _, _, coded⟩ := agrees.2.encoded result member
  have short : result.payload.length ≤ kMaxResultPayloadSize := within _ _ _ coded
  have fits : heard world.processor false header result.request = true := by
    have admissible := (agrees.2.occupied slot entry held).2.2
    rw [same, request, ← identity] at admissible
    exact heard_iff.mpr ⟨rfl, agrees.1, type, object, admissible⟩
  have verdict := lawful.cached _ slot entry result.request held
  rw [if_pos request.symm, done, same, ← identity] at verdict
  cases classified : api.dedup.classify world.processor.dedup header.key result.request with
  | mk found dedup =>
    rw [classified] at verdict
    cases verdict
    have came : intake api world.processor false header result.request nowUs reserved channel =
        (.resultReady
          ⟨result.sequence, result.timestampUs, some .rx, result.payload.length, channel⟩,
          { world.processor with dedup }.fill .rx result.payload) := by
      simp only [intake, fits, requestMeta, classified, replayView_packResult _ _ _ _ _ short]
      rfl
    exact ⟨_, _, came, rfl, rfl, rfl, Processor.bytesOf_fill _ .rx result.payload _ _ channel⟩

theorem agrees_start (lawful : api.dedup.Lawful kCacheCapacity) (robot : Identity)
    (sealLink sealEndpoint : Option Seal) :
    Agrees api (World.start (Processor.configured api robot sealLink sealEndpoint)) :=
  ⟨rfl, consistent_initial lawful _⟩

private theorem agrees_run (lawful : api.dedup.Lawful kCacheCapacity) {robot : Identity}
    {sealLink sealEndpoint : Option Seal}
    (ran : run (step api) (World.start (Processor.configured api robot sealLink sealEndpoint))
      events = some world) : Agrees api world :=
  run_invariant (fun holds stepped => agrees_step lawful holds stepped)
    (agrees_start lawful robot sealLink sealEndpoint) ran

/-- Over every run: an identity is handed out at most once; an identity once
heard of is never handed out again and leaves every entry alone, whatever bytes
come with it; a recorded result answers the identical request for as long as
its entry is cached; and every result was encoded for the request it is
recorded under. -/
theorem executes_once_and_replays (api : Api Cache) (lawful : api.dedup.Lawful kCacheCapacity)
    (within : api.EncodesWithin) (robot : Identity) (sealLink sealEndpoint : Option Seal)
    (events : List Event) (world : World Cache Seal)
    (ran : run (step api) (World.start (Processor.configured api robot sealLink sealEndpoint))
      events = some world) :
    world.ready.Nodup ∧
    (∀ contended header payload nowUs reserved channel outcome after,
      world.Knows api header.key →
      intake api world.processor contended header payload nowUs reserved channel =
        (outcome, after) →
      (∀ slot command, outcome ≠ .ready slot command) ∧
        ∀ slot, api.dedup.entry after.dedup slot =
          api.dedup.entry world.processor.dedup slot) ∧
    (∀ result ∈ world.recorded, ∀ slot entry,
      api.dedup.entry world.processor.dedup slot = some entry → entry.key = result.key →
      ∀ header nowUs reserved channel, header.type = .command →
        header.objectId = kCommandRequestObjectId → header.key = result.key →
        ∃ view after,
          intake api world.processor false header result.request nowUs reserved channel =
            (.resultReady view, after) ∧
          view.sequence = result.sequence ∧ view.timestampUs = result.timestampUs ∧
          view.channel = channel ∧ after.bytesOf view = result.payload) ∧
    ∀ result ∈ world.recorded, ∃ channel status error message,
      encodeResult api (requestMeta result.key result.request channel) status error message
        kMaxResultPayloadSize = some result.payload := by
  have agrees := agrees_run lawful ran
  refine ⟨agrees.2.readyOnce, ?_, ?_, agrees.2.encoded⟩
  · intro contended header payload nowUs reserved channel outcome after known came
    exact known_stays lawful agrees known came
  · intro result member slot entry held same header nowUs reserved channel type object identity
    exact replays lawful within agrees member held same type object identity nowUs reserved channel

def helpRequest : List UInt8 :=
  toBytes 4 1 ++ toBytes 4 2 ++ toBytes 2 1 ++ toBytes 2 1 ++ toBytes 4 0 ++ toBytes 4 4 ++
    text "help"

def helpHeader : Header where
  type := .command
  flags := 0
  objectId := kCommandRequestObjectId
  sourceId := 7
  bootId := 8
  sequence := 9
  fragmentIndex := 0
  fragmentCount := 1

def bench : World (RingCache 16) Unit :=
  World.start (Processor.configured referenceApi ⟨1, 2⟩ none none)

/-- A shell request is handed out, retried while it runs, and completed. -/
def completedTrace : List Event :=
  [.intake false helpHeader helpRequest 10 (some 1) .cLink,
    .intake false helpHeader helpRequest 11 (some 2) .cLink,
    .complete 0 0 12 (text "ok") (some 3)]

theorem replays_of_completed_trace : ∃ world, run (step referenceApi) bench completedTrace =
      some world ∧ world.ready = [helpHeader.key] ∧
    ∃ view after, intake referenceApi world.processor false helpHeader helpRequest 20 (some 4)
        .cLink = (.resultReady view, after) ∧ view.sequence = 3 ∧ view.timestampUs = 12 ∧
      after.bytesOf view = commandResultBytes ⟨helpHeader.key, 1, 1, 0, 0, text "ok"⟩ := by
  obtain ⟨world, ran⟩ : ∃ world, run (step referenceApi) bench completedTrace = some world :=
    ⟨_, rfl⟩
  obtain ⟨_, _, replay, _⟩ := executes_once_and_replays referenceApi (ringCache_lawful 16)
    referenceApi_encodesWithin ⟨1, 2⟩ none none completedTrace world ran
  cases ran
  obtain ⟨view, after, came, number, time, _, bytes⟩ := replay
    ⟨helpHeader.key, helpRequest, 3, 12, commandResultBytes ⟨helpHeader.key, 1, 1, 0, 0, text "ok"⟩⟩
    (by decide) 0 _ rfl rfl helpHeader 20 (some 4) .cLink rfl rfl rfl
  exact ⟨_, rfl, rfl, view, after, came, number, time, bytes⟩

end BallyOS.Command
