import BallyOS.Command.Channels
import BallyOS.Command.Completion

/-! Requests and results with the keys they come and go under. Every link opens
a request before its receive task passes it to `intake`; a result carries the
channel of its request back, and `send_result` seals with that channel's key or
sends nothing. A history of which request each slot was reserved for says which
one a later result answers. -/
namespace BallyOS.Command
open Btp Library

def kCommandResultObjectId : UInt16 := 0x0002

/-- One request as it came over a link, with the key store it was opened with. -/
structure Origin (Key : Type) where
  link : Link
  store : Option (KeyStore Key)
  header : Header
  ciphertext : List UInt8
  payload : List UInt8
  channel : Channel
deriving DecidableEq

/-- `QueuedCommand`: the slot, and the link its result goes back over. -/
structure Queued where
  cacheSlot : Nat
  link : Link
deriving DecidableEq

/-- One frame that left the robot, with the request it answers, the function it
was sealed by and the key store that function had. -/
structure WireFrame (Key : Type) where
  origin : Origin Key
  link : Link
  sealedBy : Option SealFn
  store : Option (KeyStore Key)
  header : Header
  plaintext : List UInt8
  bytes : List UInt8
deriving DecidableEq

structure Robot (Key Cache : Type) where
  world : World Cache SealFn
  queue : List Queued
  holders : Nat → Option (Origin Key)
  returned : List (Origin Key × ResultView)
  sent : List (WireFrame Key)

inductive RobotEvent (Key : Type)
  | request (link : Link) (store : Option (KeyStore Key)) (header : Header)
      (ciphertext : List UInt8) (flags : UInt16) (contended : Bool) (nowUs : UInt64)
      (reserved : Option UInt32) (queueFull : Bool) (busyReserved : Option UInt32)
      (sendStore : Option (KeyStore Key))
  | complete (index : Nat) (shellStatus : UInt8) (nowUs : UInt64) (message : List UInt8)
      (reserved : Option UInt32) (current : Bool) (sendStore : Option (KeyStore Key))
  | automatic (link : Link) (store : Option (KeyStore Key)) (header : Header)
      (ciphertext : List UInt8) (replyHeader : Header) (reply : List UInt8)
      (sendStore : Option (KeyStore Key))

variable {Key Cache : Type} (suite : Suite Key) (api : Api Cache) (dongleSourceId : UInt32)

def Robot.start (processor : Processor Cache SealFn) : Robot Key Cache :=
  ⟨.start processor, [], fun _ => none, [], []⟩

def resultHeader (robot : Identity) (sequence : UInt32) (flags : UInt16) : Header where
  type := .command
  flags := flags
  objectId := kCommandResultObjectId
  sourceId := robot.sourceId
  bootId := robot.bootId
  sequence := sequence
  fragmentIndex := 0
  fragmentCount := 1

/-- The frames a result makes on a link: none when its seal is missing or fails. -/
def wire (processor : Processor Cache SealFn) (link : Link) (origin : Origin Key)
    (view : ResultView) (store : Option (KeyStore Key)) : List (WireFrame Key) :=
  match processor.endpoint, sendResultVia api processor view link.cleartext with
  | some robot, some outgoing =>
    match outgoing.sealedBy with
    | none =>
      [⟨origin, link, none, store, resultHeader robot outgoing.sequence 0, outgoing.payload,
        outgoing.payload⟩]
    | some sealFn =>
      let header := resultHeader robot outgoing.sequence suite.sealedFlags
      match sealFn.call suite store header outgoing.payload with
      | none => []
      | some bytes => [⟨origin, link, some sealFn, store, header, outgoing.payload, bytes⟩]
  | _, _ => []

/-- A result is returned for a request and sent over a link. -/
def deliver (robot : Robot Key Cache) (link : Link) (origin : Origin Key) (view : ResultView)
    (store : Option (KeyStore Key)) : Robot Key Cache :=
  { robot with
    returned := robot.returned ++ [(origin, view)]
    sent := robot.sent ++ wire suite api robot.world.processor link origin view store }

/-- Which request each slot was last reserved for. -/
def note (holders : Nat → Option (Origin Key)) (origin : Origin Key) :
    Option Nat → Nat → Option (Origin Key)
  | none => holders
  | some slot => Function.update holders slot (some origin)

/-- The robot after `intake` saw a request. -/
def arrive (robot : Robot Key Cache) (origin : Origin Key) (delivered : Header) (contended : Bool)
    (nowUs : UInt64) (reserved : Option UInt32) : Robot Key Cache :=
  { robot with
    world := intakeStep api robot.world contended delivered origin.payload nowUs reserved
      origin.channel
    holders := note robot.holders origin
      (freshSlot api robot.world.processor contended delivered origin.payload) }

/-- The queue was full: the request just handed out is rejected. -/
def refuse (robot : Robot Key Cache) (slot : Nat) (link : Link) (origin : Origin Key)
    (nowUs : UInt64) (reserved : Option UInt32) (store : Option (KeyStore Key)) :
    Robot Key Cache :=
  let result := rejectBusy api robot.world.processor slot nowUs reserved
  let finished := { robot with world := finishStep api robot.world slot result }
  match result with
  | some (view, _) => deliver suite api finished link origin view store
  | none => finished

/-- `processCommandRequest`, the same for every link but for where its results go. -/
def processCommandRequest (robot : Robot Key Cache) (origin : Origin Key) (delivered : Header)
    (contended : Bool) (nowUs : UInt64) (reserved : Option UInt32) (queueFull : Bool)
    (busyReserved : Option UInt32) (store : Option (KeyStore Key)) : Robot Key Cache :=
  let arrived := arrive api robot origin delivered contended nowUs reserved
  match (intake api robot.world.processor contended delivered origin.payload nowUs reserved
      origin.channel).1 with
  | .resultReady view => deliver suite api arrived origin.link origin view store
  | .ready slot _ =>
    if queueFull then refuse suite api arrived slot origin.link origin nowUs busyReserved store
    else { arrived with queue := arrived.queue ++ [⟨slot, origin.link⟩] }
  | _ => arrived

def robotStep : Machine (Robot Key Cache) (RobotEvent Key) := fun robot event =>
  match event with
  | .request link store header ciphertext flags contended nowUs reserved queueFull busyReserved
      sendStore =>
    match linkOpen suite store dongleSourceId link header ciphertext with
    | none => some robot
    | some payload =>
      let origin : Origin Key :=
        ⟨link, store, header, ciphertext, payload,
          requestChannel suite dongleSourceId link header⟩
      some (processCommandRequest suite api robot origin { header with flags } contended nowUs
        reserved queueFull busyReserved sendStore)
  | .complete index shellStatus nowUs message reserved current sendStore =>
    match robot.queue[index]? with
    | none => none
    | some item =>
      let result := complete api robot.world.processor item.cacheSlot shellStatus nowUs message
        reserved
      let finished := { robot with
        world := { finishStep api robot.world item.cacheSlot result with
          finished := robot.world.finished ++ holder api robot.world.processor item.cacheSlot }
        queue := robot.queue.eraseIdx index }
      match result, robot.holders item.cacheSlot with
      | some (view, _), some origin =>
        if current then some (deliver suite api finished item.link origin view sendStore)
        else some { finished with returned := finished.returned ++ [(origin, view)] }
      | _, _ => some finished
  | .automatic link store header ciphertext replyHeader reply sendStore =>
    match linkOpen suite store dongleSourceId link header ciphertext with
    | none => some robot
    | some payload =>
      let origin : Origin Key :=
        ⟨link, store, header, ciphertext, payload,
          requestChannel suite dongleSourceId link header⟩
      match automaticSeal suite dongleSourceId link header with
      | none => some { robot with
          sent := robot.sent ++ [⟨origin, link, none, sendStore, replyHeader, reply, reply⟩] }
      | some sealFn =>
        match sealFn.call suite sendStore replyHeader reply with
        | none => some robot
        | some bytes => some { robot with
            sent := robot.sent ++
              [⟨origin, link, some sealFn, sendStore, replyHeader, reply, bytes⟩] }

variable {suite} {api} {dongleSourceId} {Seal : Type}

private theorem finish_seals {processor : Processor Cache Seal}
    (finished : finish api processor slot status error message nowUs reserved target =
      some (view, after)) : after.seals = processor.seals := by
  obtain ⟨number, payload, dedup, _, _, _, _, _, rfl⟩ := finish_some api finished
  rw [Processor.fill_seals]
  rfl

private theorem intake_seals {processor : Processor Cache Seal}
    (came : intake api processor contended header payload nowUs reserved channel =
      (outcome, after)) : after.seals = processor.seals := by
  cases arrived_of_intake came with
  | dropped => rfl
  | known _ _ _ same =>
    rcases (known_fill same).2 with rfl | ⟨_, _, _, rfl⟩
    · rfl
    · rw [Processor.fill_seals]
      rfl
  | handedOut => rfl
  | answered _ _ finished =>
    rw [finish_seals finished]
    rfl
  | unanswered => rfl

private theorem entry_after_finish (lawful : api.dedup.Lawful kCacheCapacity)
    {processor : Processor Cache Seal}
    (finished : finish api processor slot status error message nowUs reserved target =
      some (view, after)) (elsewhere : other ≠ slot) :
    api.dedup.entry after.dedup other = api.dedup.entry processor.dedup other := by
  obtain ⟨number, payload, dedup, _, _, _, kept, _, rfl⟩ := finish_some api finished
  rw [Processor.fill_dedup]
  exact (lawful.record _ _ _ _ kept).2.1 other elsewhere

private theorem finish_slotMeta {processor : Processor Cache Seal}
    (finished : finish api processor slot status error message nowUs reserved target =
      some (view, after)) :
    after.slotMeta = processor.slotMeta ∧ view.channel = (processor.slotMeta slot).channel := by
  obtain ⟨number, payload, dedup, _, _, _, _, rfl, rfl⟩ := finish_some api finished
  exact ⟨Processor.fill_slotMeta _, rfl⟩

/-- What an arrival does to the slots: one that is not fresh moves none; a fresh
one takes a slot that was not in flight, and holds it if it is handed out. -/
inductive Slots (api : Api Cache) (processor : Processor Cache Seal) (request : SlotMeta)
    (outcome : Intake) (after : Processor Cache Seal) : Option Nat → Prop
  | none : after.slotMeta = processor.slotMeta →
      (∀ slot, api.dedup.entry after.dedup slot = api.dedup.entry processor.dedup slot) →
      (∀ slot command, outcome ≠ .ready slot command) →
      Slots api processor request outcome after none
  | taken : after.slotMeta = Function.update processor.slotMeta slot request →
      ¬InFlight api processor.dedup slot →
      (∀ other, other ≠ slot →
        api.dedup.entry after.dedup other = api.dedup.entry processor.dedup other) →
      (∀ there command, outcome = .ready there command →
        there = slot ∧ InFlight api after.dedup slot) →
      Slots api processor request outcome after (some slot)

private theorem slots_of_intake (lawful : api.dedup.Lawful kCacheCapacity)
    {processor : Processor Cache Seal}
    (came : intake api processor contended header payload nowUs reserved channel =
      (outcome, after)) :
    Slots api processor (requestMeta header.key payload channel) outcome after
      (freshSlot api processor contended header payload) := by
  have free : ∀ {slot dedup},
      api.dedup.classify processor.dedup header.key payload = (.fresh slot, dedup) →
      ¬InFlight api processor.dedup slot := by
    rintro slot dedup classified ⟨entry, held, unanswered⟩
    exact (lawful.fresh _ _ _ _ _ classified).2.2.2.1 entry held unanswered
  cases arrived_of_intake came with
  | dropped unheard =>
    rw [freshSlot, if_pos unheard]
    exact .none rfl (fun _ => rfl) (by simp)
  | known fits classified other same =>
    rw [freshSlot_of_other classified other]
    have slots := known_slotMeta same
    refine .none slots (fun slot => ?_) (known_fill same).1
    rw [known_dedup same]
    exact lawful.notFresh _ _ _ _ _ classified other slot
  | handedOut fits classified =>
    rw [freshSlot_of_classify fits classified]
    obtain ⟨_, _, _, _, placed, others⟩ := lawful.fresh _ _ _ _ _ classified
    refine .taken rfl (free classified) others ?_
    rintro there command ⟨⟩
    exact ⟨rfl, _, placed, rfl⟩
  | answered fits classified finished =>
    rw [freshSlot_of_classify fits classified]
    obtain ⟨_, _, _, _, placed, others⟩ := lawful.fresh _ _ _ _ _ classified
    refine .taken (finish_slotMeta finished).1 (free classified) (fun other elsewhere => ?_)
      (by simp)
    rw [entry_after_finish lawful finished elsewhere]
    exact others other elsewhere
  | unanswered fits classified =>
    rw [freshSlot_of_classify fits classified]
    exact .taken rfl (free classified) (lawful.fresh _ _ _ _ _ classified).2.2.2.2.2 (by simp)

/-- The view an arrival gets shows the channel the arrival came with. -/
theorem channel_of_intake (within : api.EncodesWithin) (lawful : api.dedup.Lawful kCacheCapacity)
    {world : World Cache Seal} (agrees : Agrees api world)
    (came : intake api world.processor contended header payload nowUs reserved channel =
      (.resultReady view, after)) : view.channel = channel := by
  cases arrived_of_intake came with
  | known _ classified _ same =>
    cases same with
    | replayed =>
      obtain ⟨slot, held⟩ := lawful.complete _ _ _ _ _ classified
      obtain ⟨result, member, _, _, packed⟩ := agrees.2.stored slot _ _ held rfl
      obtain ⟨_, _, _, _, coded⟩ := agrees.2.encoded result member
      subst packed
      rw [replayView_packResult _ _ _ _ _ (within _ _ _ coded)]
      rfl
    | refused made =>
      obtain ⟨_, _, _, _, rfl, _⟩ := makeTransient_some made
      rfl
    | silent none => rcases none with same | same <;> cases same
  | answered _ _ finished =>
    rw [(finish_slotMeta finished).2, Processor.reserve_slotMeta]
    rfl

/-- The seals a processor was configured with: none, or the right one, for each
of the two channels, and at least one of them. -/
structure Sealing (processor : Processor Cache SealFn) : Prop where
  linkSeal : ∀ sealFn, processor.seals.1 = some sealFn → sealFn = .radioSeal
  endpointSeal : ∀ sealFn, processor.seals.2 = some sealFn → sealFn = .radioSealE
  some : processor.seals.1.isSome ∨ processor.seals.2.isSome

/-- The channel of a request is the one its link passes on, and on a sealed link
the channel's key in the store of that moment opened the request. -/
structure OpenedUnder (suite : Suite Key) (dongleSourceId : UInt32) (origin : Origin Key) :
    Prop where
  channel : origin.channel = requestChannel suite dongleSourceId origin.link origin.header
  opened : origin.link ≠ .serial → openUnder suite (keyOfChannel origin.channel) origin.store
    origin.header origin.ciphertext = some origin.payload

/-- A frame goes back over the link of its request and, on a sealed link, sealed
by the function of the request's channel under the key that opened the request,
as the store had it when the frame was made. -/
structure RightKey (suite : Suite Key) (frame : WireFrame Key) : Prop where
  link : frame.link = frame.origin.link
  opened : frame.link ≠ .serial → openUnder suite (keyOfChannel frame.origin.channel)
    frame.origin.store frame.origin.header frame.origin.ciphertext = some frame.origin.payload
  sealedBy : frame.link ≠ .serial → frame.sealedBy = sealOfChannel frame.origin.channel
  sealed : frame.link ≠ .serial → sealUnder suite (keyOfChannel frame.origin.channel)
    frame.store frame.header frame.plaintext = some frame.bytes

structure Keyed (suite : Suite Key) (api : Api Cache) (dongleSourceId : UInt32)
    (robot : Robot Key Cache) : Prop where
  agrees : Agrees api robot.world
  sealing : Sealing robot.world.processor
  holders : ∀ slot origin, robot.holders slot = some origin →
    (robot.world.processor.slotMeta slot).channel = origin.channel ∧
      OpenedUnder suite dongleSourceId origin
  queued : ∀ item ∈ robot.queue, InFlight api robot.world.processor.dedup item.cacheSlot ∧
    ∃ origin, robot.holders item.cacheSlot = some origin ∧ origin.link = item.link
  distinct : (robot.queue.map Queued.cacheSlot).Nodup
  returned : ∀ origin view, (origin, view) ∈ robot.returned →
    view.channel = origin.channel ∧ OpenedUnder suite dongleSourceId origin
  sent : ∀ frame ∈ robot.sent, RightKey suite frame

/-- The seal a result is given, when there is one, is the function of its channel. -/
theorem pickSeal_channel {processor : Processor Cache SealFn} (sealing : Sealing processor)
    (robots : channel ≠ .aConsole) (picked : pickSeal processor channel false = some sealFn) :
    sealOfChannel channel = some sealFn := by
  simp only [pickSeal, Bool.false_eq_true, if_false] at picked
  cases channel with
  | aConsole => exact absurd rfl robots
  | bEndpoint =>
    cases sealing.endpointSeal sealFn (by simpa [Processor.seals] using picked)
    rfl
  | cLink =>
    cases sealing.linkSeal sealFn (by simpa [Processor.seals] using picked)
    rfl

/-- Whatever a result puts on the wire is right for the request it answers. -/
theorem rightKey_of_wire {processor : Processor Cache SealFn} (sealing : Sealing processor)
    (genuine : OpenedUnder suite dongleSourceId origin) (same : origin.link = link)
    (shown : view.channel = origin.channel) (store : Option (KeyStore Key)) :
    ∀ frame ∈ wire suite api processor link origin view store, RightKey suite frame := by
  intro frame member
  have robots : view.channel ≠ .aConsole := by
    rw [shown, genuine.channel]
    exact requestChannel_ne_console dongleSourceId origin.link origin.header
  unfold wire at member
  split at member
  · rename_i robot outgoing went
    unfold sendResultVia at went
    split at went
    · cases went
    split at went
    · cases went
    rename_i backed
    cases went
    dsimp only at member
    split at member
    · rename_i bare
      have serial : link = .serial := by
        by_contra sealed
        have clear : link.cleartext = false := by simp [Link.cleartext, sealed]
        rw [clear] at bare backed
        rcases sealing.some with linked | ended
        · exact backed (by simp [bare, show processor.sealLink.isSome from linked])
        · exact backed (by simp [bare, show processor.sealEndpoint.isSome from ended])
      cases List.mem_singleton.mp member
      exact ⟨same.symm, fun sealed => absurd serial sealed, fun sealed => absurd serial sealed,
        fun sealed => absurd serial sealed⟩
    · rename_i sealFn picked
      split at member
      · cases member
      rename_i bytes covered
      cases List.mem_singleton.mp member
      have channels : link ≠ .serial → sealOfChannel origin.channel = some sealFn := by
        intro sealed
        have clear : link.cleartext = false := by simpa [Link.cleartext] using sealed
        rw [clear] at picked
        rw [← shown]
        exact pickSeal_channel sealing robots picked
      refine ⟨same.symm, fun sealed => genuine.opened (same ▸ sealed),
        fun sealed => (channels sealed).symm, fun sealed => ?_⟩
      rw [← sealOfChannel_call (channels sealed)]
      exact covered
  · cases member

/-- Returning a result that shows its request's channel, and sending it. -/
theorem keyed_deliver {robot : Robot Key Cache} (keyed : Keyed suite api dongleSourceId robot)
    (genuine : OpenedUnder suite dongleSourceId origin) (same : origin.link = link)
    (shown : view.channel = origin.channel) (store : Option (KeyStore Key)) :
    Keyed suite api dongleSourceId (deliver suite api robot link origin view store) := by
  refine { keyed with returned := ?_, sent := ?_ }
  · intro other result member
    rcases List.mem_append.mp member with old | new
    · exact keyed.returned other result old
    · cases List.mem_singleton.mp new
      exact ⟨shown, genuine⟩
  · intro frame member
    rcases List.mem_append.mp member with old | new
    · exact keyed.sent frame old
    · exact rightKey_of_wire keyed.sealing genuine same shown store frame new

private theorem sealing_of_seals {before after : Processor Cache SealFn} (sealing : Sealing before)
    (same : after.seals = before.seals) : Sealing after := by
  obtain ⟨link, endpoint, some⟩ := sealing
  exact ⟨same ▸ link, same ▸ endpoint, same ▸ some⟩

/-- Recording a result in a slot that no queued command holds. -/
theorem keyed_finish (lawful : api.dedup.Lawful kCacheCapacity) {robot : Robot Key Cache}
    {world : World Cache SealFn} {queue : List Queued}
    (keyed : Keyed suite api dongleSourceId robot) (agrees : Agrees api world)
    (finished : finish api robot.world.processor slot status error message nowUs reserved target =
      some (view, world.processor))
    (kept : queue.Sublist robot.queue) (spared : ∀ item ∈ queue, item.cacheSlot ≠ slot) :
    Keyed suite api dongleSourceId { robot with world, queue } := by
  obtain ⟨slots, _⟩ := finish_slotMeta finished
  refine { keyed with
    agrees := agrees
    sealing := sealing_of_seals keyed.sealing (finish_seals finished)
    holders := ?_
    queued := ?_
    distinct := keyed.distinct.sublist (kept.map _) }
  · intro slot origin held
    rw [slots]
    exact keyed.holders slot origin held
  · intro item member
    obtain ⟨⟨entry, held, unanswered⟩, origin⟩ := keyed.queued item (kept.subset member)
    refine ⟨⟨entry, ?_, unanswered⟩, origin⟩
    rw [entry_after_finish lawful finished (spared item member)]
    exact held

/-- What `intake` did to the slots, before anything is returned or queued. -/
theorem keyed_slots {robot : Robot Key Cache} {world : World Cache SealFn}
    (keyed : Keyed suite api dongleSourceId robot) (agrees : Agrees api world)
    (sealing : Sealing world.processor) (genuine : OpenedUnder suite dongleSourceId origin)
    (slots : Slots api robot.world.processor request outcome world.processor fresh)
    (shown : request.channel = origin.channel) :
    Keyed suite api dongleSourceId
      { robot with world, holders := note robot.holders origin fresh } ∧
    ∀ slot command, outcome = .ready slot command →
      InFlight api world.processor.dedup slot ∧ note robot.holders origin fresh slot = some origin ∧
        ∀ item ∈ robot.queue, item.cacheSlot ≠ slot := by
  cases slots with
  | none metas entries idle =>
    refine ⟨{ keyed with agrees, sealing, holders := ?_, queued := ?_ }, ?_⟩
    · intro slot other held
      rw [metas]
      exact keyed.holders slot other held
    · intro item member
      obtain ⟨⟨entry, held, unanswered⟩, there⟩ := keyed.queued item member
      exact ⟨⟨entry, (entries _).trans held, unanswered⟩, there⟩
    · intro slot command ready
      exact absurd ready (idle slot command)
  | @taken there metas free entries ready =>
    have spared : ∀ item ∈ robot.queue, item.cacheSlot ≠ there := by
      rintro item member rfl
      exact free (keyed.queued item member).1
    refine ⟨{ keyed with agrees, sealing, holders := ?_, queued := ?_ }, ?_⟩
    · intro slot other held
      rw [metas]
      by_cases here : slot = there
      · subst here
        simp only [note, Function.update_self] at held ⊢
        cases held
        exact ⟨shown, genuine⟩
      · simp only [note, Function.update_of_ne here] at held ⊢
        exact keyed.holders slot other held
    · intro item member
      obtain ⟨⟨entry, held, unanswered⟩, origin⟩ := keyed.queued item member
      have elsewhere := spared item member
      refine ⟨⟨entry, (entries _ elsewhere).trans held, unanswered⟩, ?_⟩
      simpa [note, Function.update_of_ne elsewhere] using origin
    · intro slot command handed
      obtain ⟨rfl, inFlight⟩ := ready slot command handed
      exact ⟨inFlight, Function.update_self .., spared⟩

/-- The busy reply to a request that was just handed out. -/
theorem keyed_refuse (lawful : api.dedup.Lawful kCacheCapacity) {robot : Robot Key Cache}
    (keyed : Keyed suite api dongleSourceId robot)
    (genuine : OpenedUnder suite dongleSourceId origin) (same : origin.link = link)
    (held : robot.holders slot = some origin)
    (spared : ∀ item ∈ robot.queue, item.cacheSlot ≠ slot) :
    Keyed suite api dongleSourceId
      (refuse suite api robot slot link origin nowUs reserved store) := by
  have worldStep : step api robot.world (.rejectBusy slot nowUs reserved) = some _ := rfl
  have agrees := agrees_step lawful keyed.agrees worldStep
  unfold refuse
  cases rejected : rejectBusy api robot.world.processor slot nowUs reserved with
  | none => exact keyed
  | some made =>
    obtain ⟨view, after⟩ := made
    obtain ⟨status, error, said, finished⟩ := finish_of_rejectBusy rejected
    rw [rejected] at agrees
    have shown : view.channel = origin.channel :=
      (finish_slotMeta finished).2.trans (keyed.holders slot origin held).1
    have kept := keyed_finish lawful keyed agrees finished (List.Sublist.refl robot.queue) spared
    exact keyed_deliver kept genuine same shown store

private theorem keyed_processCommandRequest (lawful : api.dedup.Lawful kCacheCapacity)
    (within : api.EncodesWithin) {robot : Robot Key Cache}
    (keyed : Keyed suite api dongleSourceId robot)
    (genuine : OpenedUnder suite dongleSourceId origin) (delivered : Header) (contended : Bool)
    (nowUs : UInt64) (reserved : Option UInt32) (queueFull : Bool) (busyReserved : Option UInt32)
    (store : Option (KeyStore Key)) :
    Keyed suite api dongleSourceId (processCommandRequest suite api robot origin delivered
      contended nowUs reserved queueFull busyReserved store) := by
  have agrees := agrees_intake lawful keyed.agrees contended delivered origin.payload nowUs
    reserved origin.channel
  have moved := intakeStep_processor api robot.world contended delivered origin.payload nowUs
    reserved origin.channel
  unfold processCommandRequest
  cases came : intake api robot.world.processor contended delivered origin.payload nowUs reserved
    origin.channel with
  | mk outcome after =>
    rw [came] at moved
    have sealing := sealing_of_seals keyed.sealing (intake_seals came)
    have slots := slots_of_intake lawful came
    dsimp only at moved ⊢
    rw [← moved] at sealing slots
    obtain ⟨arrived, ready⟩ := keyed_slots keyed agrees sealing genuine slots rfl
    cases outcome with
    | resultReady view =>
      have shown := channel_of_intake within lawful keyed.agrees came
      exact keyed_deliver arrived genuine rfl shown store
    | ready slot command =>
      obtain ⟨inFlight, held, spared⟩ := ready slot command rfl
      dsimp only
      split
      · exact keyed_refuse lawful arrived genuine rfl held spared
      refine { arrived with queued := ?_, distinct := ?_ }
      · intro item member
        rcases List.mem_append.mp member with old | new
        · exact arrived.queued item old
        · cases List.mem_singleton.mp new
          exact ⟨inFlight, origin, held, rfl⟩
      · rw [List.map_append, List.nodup_append]
        refine ⟨arrived.distinct, by simp, ?_⟩
        intro one before two last both
        obtain ⟨item, member, rfl⟩ := List.mem_map.mp before
        exact spared item member (both.trans (List.mem_singleton.mp last))
    | duplicateInProgress | ignored => exact arrived

private theorem keyed_complete (lawful : api.dedup.Lawful kCacheCapacity) {robot : Robot Key Cache}
    (keyed : Keyed suite api dongleSourceId robot)
    (stepped : robotStep suite api dongleSourceId robot (.complete index shellStatus nowUs message
      reserved current sendStore) = some next) : Keyed suite api dongleSourceId next := by
  simp only [robotStep] at stepped
  split at stepped
  · cases stepped
  rename_i item found
  have member := List.mem_of_getElem? found
  obtain ⟨_, origin, held, same⟩ := keyed.queued item member
  have worldStep : step api robot.world
      (.complete item.cacheSlot shellStatus nowUs message reserved) = some _ := rfl
  have agrees := agrees_step lawful keyed.agrees worldStep
  have kept := List.eraseIdx_sublist robot.queue index
  rw [held] at stepped
  cases completed : complete api robot.world.processor item.cacheSlot shellStatus nowUs message
    reserved with
  | none =>
    rw [completed] at agrees stepped
    cases stepped
    exact { keyed with
      agrees := agrees
      queued := fun other there => keyed.queued other (kept.subset there)
      distinct := keyed.distinct.sublist (kept.map _) }
  | some made =>
    obtain ⟨view, after⟩ := made
    obtain ⟨status, error, said, finished⟩ := finish_of_complete completed
    rw [completed] at agrees stepped
    have spared : ∀ other ∈ robot.queue.eraseIdx index, other.cacheSlot ≠ item.cacheSlot := by
      intro other there sameSlot
      obtain ⟨place, elsewhere, foundThere⟩ := List.mem_eraseIdx_iff_getElem?.mp there
      have both : (robot.queue.map Queued.cacheSlot)[place]? =
          (robot.queue.map Queued.cacheSlot)[index]? := by
        simp [List.getElem?_map, found, foundThere, sameSlot]
      have inside := (List.getElem?_eq_some_iff.mp foundThere).1
      exact elsewhere ((List.getElem?_inj (by simpa using inside) keyed.distinct).mp both)
    have shown : view.channel = origin.channel :=
      (finish_slotMeta finished).2.trans (keyed.holders item.cacheSlot origin held).1
    have recorded := keyed_finish lawful keyed agrees finished kept spared
    have genuine := (keyed.holders item.cacheSlot origin held).2
    dsimp only at stepped
    split at stepped
    · cases stepped
      exact keyed_deliver recorded genuine same shown sendStore
    · cases stepped
      refine { recorded with returned := ?_ }
      intro other result returned
      rcases List.mem_append.mp returned with old | new
      · exact keyed.returned other result old
      · cases List.mem_singleton.mp new
        exact ⟨shown, genuine⟩

private theorem keyed_automatic {robot : Robot Key Cache}
    (keyed : Keyed suite api dongleSourceId robot)
    (stepped : robotStep suite api dongleSourceId robot
      (.automatic link store header ciphertext replyHeader reply sendStore) = some next) :
    Keyed suite api dongleSourceId next := by
  have add : ∀ frame, RightKey suite frame → Keyed suite api dongleSourceId
      { robot with sent := robot.sent ++ [frame] } := by
    intro frame right
    refine { keyed with sent := ?_ }
    intro other member
    rcases List.mem_append.mp member with old | new
    · exact keyed.sent other old
    · exact List.mem_singleton.mp new ▸ right
  simp only [robotStep] at stepped
  split at stepped
  · cases stepped
    exact keyed
  rename_i payload opened
  by_cases serial : link = .serial
  · subst serial
    cases stepped
    exact add _ ⟨rfl, fun sealed => absurd rfl sealed, fun sealed => absurd rfl sealed,
      fun sealed => absurd rfl sealed⟩
  · have agree := @automaticSeal_agrees Key suite link dongleSourceId serial header
    have robots : requestChannel suite dongleSourceId link header ≠ .aConsole :=
      requestChannel_ne_console dongleSourceId link header
    have wasOpened := openUnder_of_linkOpen serial opened
    generalize requestChannel suite dongleSourceId link header = channel at *
    cases picked : sealOfChannel channel with
    | none => cases channel <;> simp_all [sealOfChannel]
    | some sealFn =>
      rw [agree, picked] at stepped
      dsimp only at stepped
      split at stepped
      · cases stepped
        exact keyed
      · rename_i bytes covered
        cases stepped
        refine add _ ⟨rfl, fun _ => wasOpened, fun _ => picked.symm, fun _ => ?_⟩
        rw [← sealOfChannel_call picked]
        exact covered

private theorem keyed_step (lawful : api.dedup.Lawful kCacheCapacity) (within : api.EncodesWithin)
    {robot next : Robot Key Cache} {event : RobotEvent Key}
    (keyed : Keyed suite api dongleSourceId robot)
    (stepped : robotStep suite api dongleSourceId robot event = some next) :
    Keyed suite api dongleSourceId next := by
  cases event with
  | request link store header ciphertext flags contended nowUs reserved queueFull busyReserved
      sendStore =>
    simp only [robotStep] at stepped
    split at stepped <;> cases stepped
    · exact keyed
    · rename_i payload opened
      have genuine : OpenedUnder suite dongleSourceId ⟨link, store, header, ciphertext, payload,
          requestChannel suite dongleSourceId link header⟩ :=
        ⟨rfl, fun sealed => openUnder_of_linkOpen sealed opened⟩
      exact keyed_processCommandRequest lawful within keyed genuine _ contended nowUs reserved
        queueFull busyReserved sendStore
  | complete index shellStatus nowUs message reserved current sendStore =>
    exact keyed_complete lawful keyed stepped
  | automatic link store header ciphertext replyHeader reply sendStore =>
    exact keyed_automatic keyed stepped

/-- The seals `configure` is given: each channel has its own or none. -/
def configuredSeals (sealLink sealEndpoint : Bool) : Option SealFn × Option SealFn :=
  (if sealLink then some .radioSeal else none, if sealEndpoint then some .radioSealE else none)

private theorem keyed_start (lawful : api.dedup.Lawful kCacheCapacity) (robot : Identity)
    (someSeal : (sealLink || sealEndpoint) = true) :
    Keyed suite api dongleSourceId (Robot.start (Processor.configured api robot
      (configuredSeals sealLink sealEndpoint).1 (configuredSeals sealLink sealEndpoint).2)) where
  agrees := agrees_start lawful robot _ _
  sealing := by
    refine ⟨?_, ?_, ?_⟩
    · intro sealFn picked
      cases sealLink <;> cases picked
      rfl
    · intro sealFn picked
      cases sealEndpoint <;> cases picked
      rfl
    · cases sealLink
      · cases sealEndpoint
        · cases someSeal
        · exact .inr rfl
      · exact .inl rfl
  holders := by simp [Robot.start]
  queued := by simp [Robot.start]
  distinct := List.nodup_nil
  returned := by simp [Robot.start]
  sent := by simp [Robot.start]

/-- With any seal configured, every view a request gets shows the channel of
the request; and every frame that answers it on a sealed link goes back over
that link, made by the sealing function of that channel under the key that
opened the request. -/
theorem replies_use_the_key_of_their_request (suite : Suite Key) (api : Api Cache)
    (lawful : api.dedup.Lawful kCacheCapacity) (within : api.EncodesWithin)
    (dongleSourceId : UInt32) (identity : Identity) (sealLink sealEndpoint : Bool)
    (someSeal : (sealLink || sealEndpoint) = true) (events : List (RobotEvent Key))
    (robot : Robot Key Cache)
    (ran : run (robotStep suite api dongleSourceId) (Robot.start (Processor.configured api identity
      (configuredSeals sealLink sealEndpoint).1 (configuredSeals sealLink sealEndpoint).2))
        events = some robot) :
    (∀ origin view, (origin, view) ∈ robot.returned →
      view.channel = origin.channel ∧ OpenedUnder suite dongleSourceId origin) ∧
    ∀ frame ∈ robot.sent, frame.link = frame.origin.link ∧ (frame.link ≠ .serial →
      openUnder suite (keyOfChannel frame.origin.channel) frame.origin.store frame.origin.header
        frame.origin.ciphertext = some frame.origin.payload ∧
      frame.sealedBy = sealOfChannel frame.origin.channel ∧
      sealUnder suite (keyOfChannel frame.origin.channel) frame.store frame.header
        frame.plaintext = some frame.bytes) := by
  have keyed : Keyed suite api dongleSourceId robot :=
    run_invariant (fun holds stepped => keyed_step lawful within holds stepped)
      (keyed_start lawful identity someSeal) ran
  refine ⟨keyed.returned, fun frame member => ?_⟩
  obtain ⟨link, opened, sealedBy, covered⟩ := keyed.sent frame member
  exact ⟨link, fun sealed => ⟨opened sealed, sealedBy sealed, covered sealed⟩⟩

/-- A cipher that only appends its key as a tag, with two keys. -/
def tagSuite : Suite UInt8 where
  sealedFlags := 1
  encrypted := fun flags => flags = 1
  aesGcm := fun _ => true
  sealAesGcm := fun key _ plaintext => some (plaintext ++ List.replicate kTagSize key)
  openAesGcm := fun key _ ciphertext =>
    let plaintext := ciphertext.take (ciphertext.length - kTagSize)
    if ciphertext = plaintext ++ List.replicate kTagSize key then some plaintext else none
  kSubscribe := 5
  kUnsubscribe := 7

def benchKeys : Option (KeyStore UInt8) := some ⟨true, 0x11, 0x22⟩

/-- The key store as a later boot provisioned it. -/
def laterKeys : Option (KeyStore UInt8) := some ⟨true, 0x33, 0x44⟩

def sealedHeader : Header := { helpHeader with flags := 1 }

def robotBench : Robot UInt8 (RingCache 16) :=
  Robot.start (Processor.configured referenceApi ⟨1, 2⟩ (configuredSeals true true).1
    (configuredSeals true true).2)

/-- Over the radio a console asks under the endpoint key and the dongle under the
link key; the dongle's command completes first, and the console retries. -/
def mixedRequestTrace : List (RobotEvent UInt8) :=
  [.request .espNow benchKeys sealedHeader (helpRequest ++ List.replicate kTagSize 0x22) 0 false
      10 (some 1) false none benchKeys,
    .request .espNow benchKeys { sealedHeader with sourceId := 99 }
      (helpRequest ++ List.replicate kTagSize 0x11) 0 false 11 (some 2) false none benchKeys,
    .complete 1 0 12 (text "ok") (some 3) true benchKeys,
    .complete 0 0 13 (text "ok") (some 4) true laterKeys,
    .request .espNow benchKeys sealedHeader (helpRequest ++ List.replicate kTagSize 0x22) 0 false
      14 (some 5) false none benchKeys]

theorem keys_of_mixed_request_trace : ∃ robot,
    run (robotStep tagSuite referenceApi 99) robotBench mixedRequestTrace = some robot ∧
    robot.sent.map WireFrame.sealedBy =
      [some .radioSeal, some .radioSealE, some .radioSealE] ∧
    robot.sent.map (fun frame => frame.bytes.getLast?) = [some 0x11, some 0x44, some 0x22] ∧
    ∀ frame ∈ robot.sent, frame.link ≠ .serial →
      sealUnder tagSuite (keyOfChannel frame.origin.channel) frame.store frame.header
        frame.plaintext = some frame.bytes := by
  have keyed := replies_use_the_key_of_their_request tagSuite referenceApi (ringCache_lawful 16)
    referenceApi_encodesWithin 99 ⟨1, 2⟩ true true rfl mixedRequestTrace _ rfl
  exact ⟨_, rfl, rfl, rfl, fun frame member sealed => ((keyed.2 frame member).2 sealed).2.2⟩

end BallyOS.Command
