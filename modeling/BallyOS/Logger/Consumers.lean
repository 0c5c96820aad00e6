import BallyOS.Library.Run
import BallyOS.Logger.Ring

/-! The logger as its callers see it: any task inserts, and one consumer at a
time, the radio flush or the SD flush, walks the ring one critical section per
step. Whether a lock is granted in time, a sequence is left, the radio takes a
frame or the SD card stores one is part of the event. `encode` is the wire
codec, which is not part of this program. -/
namespace BallyOS.Logger
open Library

/-- Where the consumer that holds `consumer_busy_` stands. -/
inductive Consumer
  | none
  | radioChunk (left : Nat)
  | radioAdvance (left sent : Nat)
  | sdSnapshot
  | sdHeader (bytesRemaining : Nat)
  | sdFragment (bytesRemaining : Nat) (header : StoredLogHeader) (recordOffset : Nat)
      (packet : UInt8)
  | sdRelease (bytesRemaining : Nat) (header : StoredLogHeader)
  | radioEnding
  | sdEnding (success : Bool)
deriving DecidableEq

/-- A single-fragment LOG message the radio accepted. -/
structure LogMessage where
  type : UInt8
  sequence : UInt32
  timestampUs : UInt64
  payload : List UInt8
  sealed : Bool
deriving DecidableEq

/-- The logger's shared state, and what its consumers have put out: messages
the radio took, frames the current SD flush gave its callback and those of
them the callback stored. -/
structure World where
  ring : Ring
  endpoint : Bool
  endpointSeal : Bool
  consumer : Consumer
  sent : List LogMessage
  offered : List (List UInt8)
  stored : List (List UInt8)

def World.initial : World where
  ring := Ring.empty
  endpoint := false
  endpointSeal := false
  consumer := .none
  sent := []
  offered := []
  stored := []

inductive Event
  | configureBtp (sealed : Bool)
  | insertLog (data : List UInt8) (type : LogType) (timestampUs : UInt64)
      (reserved : Option UInt32)
  | flushLogs (maxPackets : Nat)
  | radioChunk (locked : Bool) (reserved : Option UInt32) (accepted : Bool)
  | radioAdvance
  | flushLogsTo
  | sdSnapshot
  | sdHeader
  | sdFragment (stored : Bool)
  | sdRelease
  | endConsumer
deriving DecidableEq

variable (limits : Limits) (encode : Fragment → Option (List UInt8))

def insertLog (world : World) (data : List UInt8) (type : LogType) (timestampUs : UInt64)
    (reserved : Option UInt32) : World :=
  if world.endpoint then
    { world with ring := insertLogImpl limits world.ring data type timestampUs reserved }
  else world

/-- `begin_consumer`: refused while another consumer walks the ring. -/
def beginConsumer (world : World) (consumer : Consumer) : World :=
  if world.consumer = .none then { world with consumer } else world

/-- One packet of `flush_logs` up to the radio's answer. Later chunks of one
record are messages of their own and reserve their own sequence. -/
def radioChunk (world : World) (locked : Bool) (reserved : Option UInt32) (accepted : Bool) :
    Option World :=
  match world.consumer with
  | .radioChunk 0 => some { world with consumer := .radioEnding }
  | .radioChunk (left + 1) =>
    if !locked || !world.endpoint then some { world with consumer := .radioEnding }
    else match selectRecord limits world.ring with
      | none => some { world with consumer := .radioEnding }
      | some ring =>
        let payload := chunkPayload limits ring world.endpointSeal
        let sequence :=
          if ring.sendRecordBytesDone = 0 then some ring.sendHeader.sequence else reserved
        match sequence with
        | none => some { world with ring, consumer := .radioEnding }
        | some sequence =>
          if accepted then
            let message : LogMessage :=
              { type := ring.sendHeader.type
                sequence
                timestampUs := ring.sendHeader.timestampUs
                payload
                sealed := world.endpointSeal }
            some { world with
              ring
              sent := world.sent ++ [message]
              consumer := .radioAdvance left payload.length }
          else some { world with ring, consumer := .radioEnding }
  | _ => none

def radioAdvance (world : World) : Option World :=
  match world.consumer with
  | .radioAdvance left sent =>
    if world.ring.sendRecordActive then
      some { world with
        ring := advanceSend limits sent world.ring
        consumer := .radioChunk left }
    else some { world with consumer := .radioEnding }
  | _ => none

/-- Only what is retained now is saved by this flush. -/
def sdSnapshot (world : World) : Option World :=
  match world.consumer with
  | .sdSnapshot => some { world with
      consumer := .sdHeader world.ring.usedBytes
      offered := []
      stored := [] }
  | _ => none

def sdHeader (world : World) : Option World :=
  match world.consumer with
  | .sdHeader 0 => some { world with consumer := .sdEnding true }
  | .sdHeader (less + 1) =>
    match readHeaderAt limits world.ring world.ring.readOffset (less + 1) with
    | none => some { world with consumer := .sdEnding false }
    | some header => some { world with
        consumer := .sdFragment (less + 1) header world.ring.readOffset 0 }
  | _ => none

/-- The fragment the loop copies out of the ring for one packet. -/
def ringFragment (ring : Ring) (header : StoredLogHeader) (recordOffset : Nat) (packet : UInt8) :
    Fragment :=
  fragmentOf limits header (readFromRing limits ring
    ((recordOffset + StoredLogHeader.storedSize + packet.toNat * limits.maxPayloadSize) %
      limits.storageCapacity)
    (fragmentLength limits header packet.toNat)) packet

/-- One turn of the fragment loop: copy under the lock, encode, call back. -/
def sdFragment (world : World) (stored : Bool) : Option World :=
  match world.consumer with
  | .sdFragment bytesRemaining header recordOffset packet =>
    if packet < fragmentCount limits header then
      match if world.endpoint then encode (ringFragment limits world.ring header recordOffset packet)
        else none with
      | none => some { world with consumer := .sdEnding false }
      | some frame =>
        let offered := world.offered ++ [frame]
        if stored then
          some { world with
            offered
            stored := world.stored ++ [frame]
            consumer := .sdFragment bytesRemaining header recordOffset (packet + 1) }
        else some { world with offered, consumer := .sdEnding false }
    else some { world with consumer := .sdRelease bytesRemaining header }
  | _ => none

def sdRelease (world : World) : Option World :=
  match world.consumer with
  | .sdRelease bytesRemaining header => some { world with
      ring := releaseOldest limits header world.ring
      consumer := .sdHeader (sub32 bytesRemaining header.recordSize) }
  | _ => none

def endConsumer (world : World) : Option World :=
  match world.consumer with
  | .radioEnding | .sdEnding _ => some { world with consumer := .none }
  | _ => none

def step : Machine World Event := fun world event =>
  match event with
  | .configureBtp sealed => some { world with endpoint := true, endpointSeal := sealed }
  | .insertLog data type timestampUs reserved =>
    some (insertLog limits world data type timestampUs reserved)
  | .flushLogs maxPackets => some (beginConsumer world (.radioChunk maxPackets))
  | .radioChunk locked reserved accepted => radioChunk limits world locked reserved accepted
  | .radioAdvance => radioAdvance limits world
  | .flushLogsTo => some (beginConsumer world .sdSnapshot)
  | .sdSnapshot => sdSnapshot world
  | .sdHeader => sdHeader limits world
  | .sdFragment stored => sdFragment limits encode world stored
  | .sdRelease => sdRelease limits world
  | .endConsumer => endConsumer world

/-- Every move of the logger: what it needed and what it left. -/
inductive Moved (world : World) : Event → World → Prop
  | configured : Moved world (.configureBtp sealed)
      { world with endpoint := true, endpointSeal := sealed }
  | ignored : Moved world (.insertLog data type timestampUs reserved) world
  | inserted : world.endpoint = true → Moved world (.insertLog data type timestampUs reserved)
      { world with ring := insertLogImpl limits world.ring data type timestampUs reserved }
  | radioBusy : Moved world (.flushLogs maxPackets) world
  | sdBusy : Moved world .flushLogsTo world
  | radioBegan : world.consumer = .none → Moved world (.flushLogs maxPackets)
      { world with consumer := .radioChunk maxPackets }
  | sdBegan : world.consumer = .none → Moved world .flushLogsTo
      { world with consumer := .sdSnapshot }
  | radioStopped : world.consumer = .radioChunk left →
      Moved world (.radioChunk locked reserved accepted)
        { world with consumer := .radioEnding }
  | radioRefused : world.consumer = .radioChunk left →
      selectRecord limits world.ring = some ring →
      Moved world (.radioChunk locked reserved accepted)
        { world with ring, consumer := .radioEnding }
  | radioSent : world.consumer = .radioChunk (left + 1) →
      selectRecord limits world.ring = some ring →
      Moved world (.radioChunk locked reserved accepted) { world with
        ring
        sent := world.sent ++ [message]
        consumer := .radioAdvance left (chunkPayload limits ring world.endpointSeal).length }
  | radioAdvanced : world.consumer = .radioAdvance left sent →
      world.ring.sendRecordActive = true →
      Moved world .radioAdvance { world with
        ring := advanceSend limits sent world.ring
        consumer := .radioChunk left }
  | radioLost : world.consumer = .radioAdvance left sent →
      Moved world .radioAdvance { world with consumer := .radioEnding }
  | snapshotTaken : world.consumer = .sdSnapshot → Moved world .sdSnapshot { world with
      consumer := .sdHeader world.ring.usedBytes
      offered := []
      stored := [] }
  | sdDone : world.consumer = .sdHeader 0 →
      Moved world .sdHeader { world with consumer := .sdEnding true }
  | headerMissing : world.consumer = .sdHeader (less + 1) →
      readHeaderAt limits world.ring world.ring.readOffset (less + 1) = none →
      Moved world .sdHeader { world with consumer := .sdEnding false }
  | headerRead : world.consumer = .sdHeader (less + 1) →
      readHeaderAt limits world.ring world.ring.readOffset (less + 1) = some header →
      Moved world .sdHeader
        { world with consumer := .sdFragment (less + 1) header world.ring.readOffset 0 }
  | fragmentMissing : world.consumer = .sdFragment bytesRemaining header recordOffset packet →
      packet < fragmentCount limits header →
      (world.endpoint = false ∨
        encode (ringFragment limits world.ring header recordOffset packet) = none) →
      Moved world (.sdFragment stored) { world with consumer := .sdEnding false }
  | fragmentStored : world.consumer = .sdFragment bytesRemaining header recordOffset packet →
      packet < fragmentCount limits header →
      encode (ringFragment limits world.ring header recordOffset packet) = some frame →
      Moved world (.sdFragment true) { world with
        offered := world.offered ++ [frame]
        stored := world.stored ++ [frame]
        consumer := .sdFragment bytesRemaining header recordOffset (packet + 1) }
  | fragmentRefused : world.consumer = .sdFragment bytesRemaining header recordOffset packet →
      packet < fragmentCount limits header →
      encode (ringFragment limits world.ring header recordOffset packet) = some frame →
      Moved world (.sdFragment false) { world with
        offered := world.offered ++ [frame]
        consumer := .sdEnding false }
  | fragmentsDone : world.consumer = .sdFragment bytesRemaining header recordOffset packet →
      ¬packet < fragmentCount limits header →
      Moved world (.sdFragment stored)
        { world with consumer := .sdRelease bytesRemaining header }
  | released : world.consumer = .sdRelease bytesRemaining header →
      Moved world .sdRelease { world with
        ring := releaseOldest limits header world.ring
        consumer := .sdHeader (sub32 bytesRemaining header.recordSize) }
  | ended : Moved world .endConsumer { world with consumer := .none }

variable {limits encode}

private theorem moved_of_radioChunk
    (stepped : radioChunk limits world locked reserved accepted = some next) :
    Moved limits encode world (.radioChunk locked reserved accepted) next := by
  simp only [radioChunk] at stepped
  split at stepped
  · cases stepped
    exact .radioStopped ‹_›
  · split at stepped
    · cases stepped
      exact .radioStopped ‹_›
    split at stepped
    · cases stepped
      exact .radioStopped ‹_›
    split at stepped
    · cases stepped
      exact .radioRefused ‹_› ‹_›
    split at stepped <;> cases stepped
    · exact .radioSent ‹_› ‹_›
    · exact .radioRefused ‹_› ‹_›
  · cases stepped

private theorem moved_of_sdFragment
    (stepped : sdFragment limits encode world stored = some next) :
    Moved limits encode world (.sdFragment stored) next := by
  simp only [sdFragment] at stepped
  split at stepped
  · split at stepped
    · rename_i more
      split at stepped
      · cases stepped
        rename_i missing
        refine .fragmentMissing ‹_› more ?_
        split at missing
        · exact .inr missing
        · rename_i unset
          exact .inl (by simpa using unset)
      · rename_i frame coded
        split at coded
        · cases stored with
          | true =>
            cases stepped
            exact .fragmentStored ‹_› more coded
          | false =>
            cases stepped
            exact .fragmentRefused ‹_› more coded
        · cases coded
    · cases stepped
      exact .fragmentsDone ‹_› ‹_›
  · cases stepped

theorem moved_of_step (stepped : step limits encode world event = some next) :
    Moved limits encode world event next := by
  cases event with
  | configureBtp sealed =>
    cases stepped
    exact .configured
  | insertLog data type timestampUs reserved =>
    simp only [step, insertLog] at stepped
    split at stepped <;> cases stepped
    · exact .inserted ‹_›
    · exact .ignored
  | flushLogs maxPackets =>
    simp only [step, beginConsumer] at stepped
    split at stepped <;> cases stepped
    · exact .radioBegan ‹_›
    · exact .radioBusy
  | radioChunk locked reserved accepted => exact moved_of_radioChunk stepped
  | radioAdvance =>
    simp only [step, radioAdvance] at stepped
    split at stepped
    · split at stepped <;> cases stepped
      · exact .radioAdvanced ‹_› ‹_›
      · exact .radioLost ‹_›
    · cases stepped
  | flushLogsTo =>
    simp only [step, beginConsumer] at stepped
    split at stepped <;> cases stepped
    · exact .sdBegan ‹_›
    · exact .sdBusy
  | sdSnapshot =>
    simp only [step, sdSnapshot] at stepped
    split at stepped <;> cases stepped
    exact .snapshotTaken ‹_›
  | sdHeader =>
    simp only [step, sdHeader] at stepped
    split at stepped
    · cases stepped
      exact .sdDone ‹_›
    · split at stepped <;> cases stepped
      · exact .headerMissing ‹_› ‹_›
      · exact .headerRead ‹_› ‹_›
    · cases stepped
  | sdFragment stored => exact moved_of_sdFragment stepped
  | sdRelease =>
    simp only [step, sdRelease] at stepped
    split at stepped <;> cases stepped
    exact .released ‹_›
  | endConsumer =>
    simp only [step, endConsumer] at stepped
    split at stepped <;> cases stepped <;> exact .ended

end BallyOS.Logger
