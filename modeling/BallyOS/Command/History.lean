import BallyOS.Command.Arrival
import BallyOS.Library.Run

/-! The command processor over whole runs of `intake`, `reject_busy` and
`complete`, in any order and with any arguments, beside the history an observer
would write down: which identities were handed out for execution, which had
their command run, and every result as it was first returned. -/
namespace BallyOS.Command
open Btp Library

/-- A result as it was first returned, with the request it answers. -/
structure Recorded where
  key : DedupKey
  request : List UInt8
  sequence : UInt32
  timestampUs : UInt64
  payload : List UInt8
deriving DecidableEq

structure World (Cache Seal : Type) where
  processor : Processor Cache Seal
  ready : List DedupKey
  finished : List DedupKey
  recorded : List Recorded

inductive Event
  | intake (contended : Bool) (header : Header) (payload : List UInt8) (nowUs : UInt64)
      (reserved : Option UInt32) (channel : Channel)
  | rejectBusy (cacheSlot : Nat) (nowUs : UInt64) (reserved : Option UInt32)
  | complete (cacheSlot : Nat) (shellStatus : UInt8) (nowUs : UInt64) (message : List UInt8)
      (reserved : Option UInt32)
deriving DecidableEq

variable {Cache Seal : Type} (api : Api Cache)

def World.start (processor : Processor Cache Seal) : World Cache Seal := ⟨processor, [], [], []⟩

/-- What an observer writes down for a result returned for a slot: it belongs
to the request that holds the slot. -/
def record (before : Processor Cache Seal) (slot : Nat) (view : ResultView)
    (after : Processor Cache Seal) : List Recorded :=
  match api.dedup.entry before.dedup slot with
  | none => []
  | some entry =>
    [⟨entry.key, entry.request, view.sequence, view.timestampUs, after.bytesOf view⟩]

/-- The slot an arrival is given when the cache takes it for a fresh request. -/
def freshSlot (processor : Processor Cache Seal) (contended : Bool) (header : Header)
    (payload : List UInt8) : Option Nat :=
  if heard processor contended header payload = false then none
  else match (api.dedup.classify processor.dedup header.key payload).1 with
    | .fresh slot => some slot
    | _ => none

def intakeStep (world : World Cache Seal) (contended : Bool) (header : Header)
    (payload : List UInt8) (nowUs : UInt64) (reserved : Option UInt32) (channel : Channel) :
    World Cache Seal :=
  let (outcome, after) := intake api world.processor contended header payload nowUs reserved channel
  match outcome with
  | .ready .. => { world with processor := after, ready := world.ready ++ [header.key] }
  | .resultReady view =>
    if (freshSlot api world.processor contended header payload).isSome then { world with
      processor := after
      recorded := world.recorded ++
        [⟨header.key, payload, view.sequence, view.timestampUs, after.bytesOf view⟩] }
    else { world with processor := after }
  | _ => { world with processor := after }

theorem intakeStep_processor (world : World Cache Seal) (contended : Bool) (header : Header)
    (payload : List UInt8) (nowUs : UInt64) (reserved : Option UInt32) (channel : Channel) :
    (intakeStep api world contended header payload nowUs reserved channel).processor =
      (intake api world.processor contended header payload nowUs reserved channel).2 := by
  unfold intakeStep
  split
  rename_i outcome after came
  rw [came]
  split
  · rfl
  · split <;> rfl
  · rfl

theorem intakeStep_finished (world : World Cache Seal) (contended : Bool) (header : Header)
    (payload : List UInt8) (nowUs : UInt64) (reserved : Option UInt32) (channel : Channel) :
    (intakeStep api world contended header payload nowUs reserved channel).finished =
      world.finished := by
  unfold intakeStep
  split
  split
  · rfl
  · split <;> rfl
  · rfl

/-- A finished slot's result is written down; a failed attempt changes nothing. -/
def finishStep (world : World Cache Seal) (slot : Nat)
    (result : Option (ResultView × Processor Cache Seal)) : World Cache Seal :=
  match result with
  | some (view, after) => { world with
      processor := after
      recorded := world.recorded ++ record api world.processor slot view after }
  | none => world

/-- The identity whose command a completion is for. -/
def holder (processor : Processor Cache Seal) (slot : Nat) : List DedupKey :=
  match api.dedup.entry processor.dedup slot with
  | none => []
  | some entry => [entry.key]

def step : Machine (World Cache Seal) Event := fun world event =>
  match event with
  | .intake contended header payload nowUs reserved channel =>
    some (intakeStep api world contended header payload nowUs reserved channel)
  | .rejectBusy cacheSlot nowUs reserved =>
    some (finishStep api world cacheSlot (rejectBusy api world.processor cacheSlot nowUs reserved))
  | .complete cacheSlot shellStatus nowUs message reserved =>
    some { finishStep api world cacheSlot
        (complete api world.processor cacheSlot shellStatus nowUs message reserved) with
      finished := world.finished ++ holder api world.processor cacheSlot }

/-- Cache, slots and history agree. -/
structure Consistent (dedup : Cache) (slotMeta : Nat → SlotMeta) (ready : List DedupKey)
    (recorded : List Recorded) : Prop where
  occupied : ∀ slot entry, api.dedup.entry dedup slot = some entry →
    slotMeta slot = requestMeta entry.key entry.request (slotMeta slot).channel ∧
      api.dedup.seen dedup entry.key ∧ Admissible entry.key entry.request
  apart : ∀ one two first second, api.dedup.entry dedup one = some first →
    api.dedup.entry dedup two = some second → first.key = second.key → one = two
  readySeen : ∀ key ∈ ready, api.dedup.seen dedup key
  readyOnce : ready.Nodup
  recordedSeen : ∀ result ∈ recorded, api.dedup.seen dedup result.key
  stored : ∀ slot entry bytes, api.dedup.entry dedup slot = some entry →
    entry.result = some bytes → ∃ result ∈ recorded, result.key = entry.key ∧
      result.request = entry.request ∧
        bytes = packResult result.sequence result.timestampUs result.payload
  running : ∀ slot entry, api.dedup.entry dedup slot = some entry → entry.result = none →
    ∀ result ∈ recorded, result.key ≠ entry.key
  recordedOnce : (recorded.map Recorded.key).Nodup
  encoded : ∀ result ∈ recorded, ∃ channel status error message,
    encodeResult api (requestMeta result.key result.request channel) status error message
      kMaxResultPayloadSize = some result.payload

variable {api} {dedup : Cache} {slotMeta : Nat → SlotMeta} {ready : List DedupKey}
  {recorded : List Recorded}

/-- A verdict that is not fresh moves no entry. -/
theorem consistent_notFresh (lawful : api.dedup.Lawful kCacheCapacity)
    (consistent : Consistent api dedup slotMeta ready recorded)
    (classified : api.dedup.classify dedup key request = (verdict, next))
    (other : ∀ slot, verdict ≠ .fresh slot) :
    Consistent api next slotMeta ready recorded := by
  have same := lawful.notFresh _ _ _ _ _ classified other
  have stays := fun another => lawful.seenStays _ _ _ _ _ another classified
  obtain ⟨occupied, apart, readySeen, readyOnce, recordedSeen, stored, running, recordedOnce,
    encoded⟩ := consistent
  refine ⟨?_, ?_, ?_, readyOnce, ?_, ?_, ?_, recordedOnce, encoded⟩
  · intro slot entry found
    rw [same] at found
    exact ⟨(occupied slot entry found).1, stays _ (occupied slot entry found).2.1,
      (occupied slot entry found).2.2⟩
  · intro one two first second
    rw [same, same]
    exact apart one two first second
  · exact fun key member => stays key (readySeen key member)
  · exact fun result member => stays _ (recordedSeen result member)
  · intro slot entry bytes found
    rw [same] at found
    exact stored slot entry bytes found
  · intro slot entry found
    rw [same] at found
    exact running slot entry found

/-- A fresh identity was never handed out nor answered, and takes its slot over. -/
theorem consistent_fresh (lawful : api.dedup.Lawful kCacheCapacity)
    (consistent : Consistent api dedup slotMeta ready recorded)
    (admissible : Admissible key request)
    (classified : api.dedup.classify dedup key request = (.fresh slot, next)) :
    key ∉ ready ∧
      Consistent api next (Function.update slotMeta slot (requestMeta key request channel))
        ready recorded := by
  obtain ⟨_, unseen, seen, _, placed, others⟩ := lawful.fresh _ _ _ _ _ classified
  have stays := fun another => lawful.seenStays _ _ _ _ _ another classified
  obtain ⟨occupied, apart, readySeen, readyOnce, recordedSeen, stored, running, recordedOnce,
    encoded⟩ := consistent
  refine ⟨fun member => unseen (readySeen key member), ?_, ?_, ?_, readyOnce, ?_, ?_, ?_,
    recordedOnce, encoded⟩
  · intro another entry found
    by_cases here : another = slot
    · subst here
      cases placed.symm.trans found
      exact ⟨by simp [requestMeta], seen, admissible⟩
    · rw [others another here] at found
      rw [Function.update_of_ne here]
      exact ⟨(occupied another entry found).1, stays _ (occupied another entry found).2.1,
        (occupied another entry found).2.2⟩
  · intro one two first second foundOne foundTwo same
    by_cases one_here : one = slot <;> by_cases two_here : two = slot
    · rw [one_here, two_here]
    · subst one_here
      cases placed.symm.trans foundOne
      rw [others two two_here] at foundTwo
      have taken : key = second.key := same
      exact absurd (taken ▸ (occupied two second foundTwo).2.1) unseen
    · subst two_here
      cases placed.symm.trans foundTwo
      rw [others one one_here] at foundOne
      have taken : first.key = key := same
      exact absurd (taken ▸ (occupied one first foundOne).2.1) unseen
    · rw [others one one_here] at foundOne
      rw [others two two_here] at foundTwo
      exact apart one two first second foundOne foundTwo same
  · exact fun another member => stays another (readySeen another member)
  · exact fun result member => stays _ (recordedSeen result member)
  · intro another entry bytes found done
    by_cases here : another = slot
    · subst here
      cases placed.symm.trans found
      cases done
    · rw [others another here] at found
      exact stored another entry bytes found done
  · intro another entry found unfinished result member
    by_cases here : another = slot
    · subst here
      cases placed.symm.trans found
      intro same
      have taken : result.key = key := same
      exact unseen (taken ▸ recordedSeen result member)
    · rw [others another here] at found
      exact running another entry found unfinished result member

/-- Handing a fresh identity out keeps the hand-outs distinct. -/
theorem consistent_ready (consistent : Consistent api dedup slotMeta ready recorded)
    (new : key ∉ ready) (seen : api.dedup.seen dedup key) :
    Consistent api dedup slotMeta (ready ++ [key]) recorded := by
  refine { consistent with readySeen := ?_, readyOnce := ?_ }
  · intro another member
    rcases List.mem_append.mp member with old | last
    · exact consistent.readySeen another old
    · exact List.mem_singleton.mp last ▸ seen
  · exact List.nodup_append.mpr ⟨consistent.readyOnce, by simp, by
      intro another old last added same
      exact new (List.mem_singleton.mp added ▸ same ▸ old)⟩

/-- A result is recorded once, under the identity and action of the slot's
occupant, exactly as it is handed back. -/
theorem consistent_record (lawful : api.dedup.Lawful kCacheCapacity)
    (consistent : Consistent api dedup slotMeta ready recorded)
    (coded : encodeResult api (slotMeta slot) status error message kMaxResultPayloadSize =
      some payload)
    (kept : api.dedup.recordResult dedup slot (packResult number nowUs payload) = some next) :
    ∃ entry, api.dedup.entry dedup slot = some entry ∧ (slotMeta slot).key = entry.key ∧
      entry.result = none ∧
      Consistent api next slotMeta ready
        (recorded ++ [⟨entry.key, entry.request, number, nowUs, payload⟩]) := by
  obtain ⟨⟨entry, found, unfinished, written⟩, others, stays⟩ := lawful.record _ _ _ _ kept
  obtain ⟨occupied, apart, readySeen, readyOnce, recordedSeen, stored, running, recordedOnce,
    encoded⟩ := consistent
  obtain ⟨described, seen, admissible⟩ := occupied slot entry found
  have identity : (slotMeta slot).key = entry.key := by
    rw [described]
    rfl
  refine ⟨entry, found, identity, unfinished, ?_, ?_, ?_, readyOnce, ?_, ?_, ?_, ?_, ?_⟩
  · intro another occupant now
    by_cases here : another = slot
    · subst here
      cases written.symm.trans now
      exact ⟨described, stays _ seen, admissible⟩
    · rw [others another here] at now
      exact ⟨(occupied another occupant now).1, stays _ (occupied another occupant now).2.1,
        (occupied another occupant now).2.2⟩
  · have before : ∀ another occupant, api.dedup.entry next another = some occupant →
        ∃ old, api.dedup.entry dedup another = some old ∧ old.key = occupant.key := by
      intro another occupant now
      by_cases here : another = slot
      · subst here
        cases written.symm.trans now
        exact ⟨entry, found, rfl⟩
      · exact ⟨occupant, (others another here).symm.trans now, rfl⟩
    intro one two first second foundOne foundTwo same
    obtain ⟨oldOne, atOne, keyOne⟩ := before one first foundOne
    obtain ⟨oldTwo, atTwo, keyTwo⟩ := before two second foundTwo
    exact apart one two oldOne oldTwo atOne atTwo (keyOne.trans (same.trans keyTwo.symm))
  · exact fun key member => stays key (readySeen key member)
  · intro result member
    rcases List.mem_append.mp member with old | new
    · exact stays _ (recordedSeen result old)
    · exact List.mem_singleton.mp new ▸ stays _ seen
  · intro another occupant bytes now done
    by_cases here : another = slot
    · subst here
      cases written.symm.trans now
      cases done
      exact ⟨_, List.mem_append_right _ (List.mem_singleton_self _), rfl, rfl, rfl⟩
    · rw [others another here] at now
      obtain ⟨result, member, same⟩ := stored another occupant bytes now done
      exact ⟨result, List.mem_append_left _ member, same⟩
  · intro another occupant now unfinished' result member
    by_cases here : another = slot
    · subst here
      cases written.symm.trans now
      cases unfinished'
    · rw [others another here] at now
      rcases List.mem_append.mp member with old | new
      · exact running another occupant now unfinished' result old
      · rw [List.mem_singleton.mp new]
        exact fun same => here (apart another slot occupant entry now found same.symm)
  · rw [List.map_append, List.nodup_append]
    refine ⟨recordedOnce, by simp, ?_⟩
    intro key old last added same
    obtain ⟨result, member, rfl⟩ := List.mem_map.mp old
    rw [List.map_singleton, List.mem_singleton] at added
    exact running slot entry found unfinished result member (same.trans added)
  · intro result member
    rcases List.mem_append.mp member with old | new
    · exact encoded result old
    · obtain rfl := List.mem_singleton.mp new
      exact ⟨(slotMeta slot).channel, status, error, message, by rwa [← described]⟩

theorem consistent_initial (lawful : api.dedup.Lawful kCacheCapacity) (slotMeta : Nat → SlotMeta) :
    Consistent api api.dedup.initial slotMeta [] [] := by
  refine ⟨?_, ?_, nofun, List.nodup_nil, nofun, ?_, ?_, List.nodup_nil, nofun⟩
  all_goals
    intros
    simp_all [lawful.initialEntry]

end BallyOS.Command
