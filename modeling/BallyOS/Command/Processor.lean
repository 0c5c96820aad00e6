import BallyOS.Command.Request
import BallyOS.Library.LittleEndian

/-! The command processor: every COMMAND_REQUEST is classified against the
deduplication cache, and every result is recorded there with the frame fields a
retransmission repeats. Each operation runs under the cache lock and is one
function of the processor's state; a sequence it reserves from the endpoint is
an argument, `none` when the endpoint has none left. -/
namespace BallyOS.Command
open Btp Library

def kCacheCapacity : Nat := 16
def kMaxResultPayloadSize : Nat := 128
def kReplayPrefix : Nat := 12

/-- What a slot's occupant needs for its result. -/
structure SlotMeta where
  key : DedupKey
  actionId : UInt16
  actionVersion : UInt16
  channel : Channel
deriving Repr, DecidableEq

/-- The two buffers a result view may point into. -/
inductive ViewBuffer
  | rx | shell
deriving Repr, DecidableEq

/-- A result to send. The payload is a pointer: its bytes are read when the
view is sent, not when it is made. -/
structure ResultView where
  sequence : UInt32
  timestampUs : UInt64
  payload : Option ViewBuffer
  payloadSize : Nat
  channel : Channel
deriving Repr, DecidableEq

def ResultView.empty : ResultView := ⟨0, 0, none, 0, .cLink⟩

inductive Intake
  | ready (cacheSlot : Nat) (command : List UInt8)
  | duplicateInProgress
  | resultReady (result : ResultView)
  | ignored
deriving DecidableEq

structure Processor (Cache Seal : Type) where
  endpoint : Option Identity
  sealLink : Option Seal
  sealEndpoint : Option Seal
  dedup : Cache
  slotMeta : Nat → SlotMeta
  rxView : List UInt8
  shellView : List UInt8

variable {Cache Seal : Type} (api : Api Cache)

/-- A processor that `configure` was called on. -/
def Processor.configured (robot : Identity) (sealLink sealEndpoint : Option Seal) :
    Processor Cache Seal where
  endpoint := some robot
  sealLink := sealLink
  sealEndpoint := sealEndpoint
  dedup := api.dedup.initial
  slotMeta := fun _ => ⟨⟨0, 0, 0⟩, 0, 0, .cLink⟩
  rxView := List.replicate kMaxResultPayloadSize 0
  shellView := List.replicate kMaxResultPayloadSize 0

namespace Processor

def buffer (processor : Processor Cache Seal) : ViewBuffer → List UInt8
  | .rx => processor.rxView
  | .shell => processor.shellView

/-- `memcpy` to the start of a view buffer; what lies behind stays. -/
def fill (processor : Processor Cache Seal) (target : ViewBuffer) (bytes : List UInt8) :
    Processor Cache Seal :=
  let filled := bytes ++ (processor.buffer target).drop bytes.length
  match target with
  | .rx => { processor with rxView := filled }
  | .shell => { processor with shellView := filled }

/-- The bytes a view stands for now. -/
def bytesOf (processor : Processor Cache Seal) (view : ResultView) : List UInt8 :=
  match view.payload with
  | none => []
  | some target => (processor.buffer target).take view.payloadSize

/-- A view over a buffer that was just filled stands for what it was filled with. -/
theorem bytesOf_fill (processor : Processor Cache Seal) (target : ViewBuffer)
    (bytes : List UInt8) (number : UInt32) (timestampUs : UInt64) (channel : Channel) :
    (processor.fill target bytes).bytesOf
      ⟨number, timestampUs, some target, bytes.length, channel⟩ = bytes := by
  cases target <;> simp [bytesOf, fill, buffer]

theorem buffer_fill (processor : Processor Cache Seal) (target other : ViewBuffer)
    (bytes : List UInt8) (apart : other ≠ target) :
    (processor.fill target bytes).buffer other = processor.buffer other := by
  cases target <;> cases other <;> first | rfl | exact absurd rfl apart

@[simp] theorem fill_dedup (processor : Processor Cache Seal) :
    (processor.fill target bytes).dedup = processor.dedup := by
  cases target <;> rfl

@[simp] theorem fill_slotMeta (processor : Processor Cache Seal) :
    (processor.fill target bytes).slotMeta = processor.slotMeta := by
  cases target <;> rfl

def seals (processor : Processor Cache Seal) : Option Seal × Option Seal :=
  (processor.sealLink, processor.sealEndpoint)

@[simp] theorem fill_seals (processor : Processor Cache Seal) :
    (processor.fill target bytes).seals = processor.seals := by
  cases target <;> rfl

@[simp] theorem fill_endpoint (processor : Processor Cache Seal) :
    (processor.fill target bytes).endpoint = processor.endpoint := by
  cases target <;> rfl

end Processor

/-- A C string ends at its first zero byte. -/
def cString (message : List UInt8) : List UInt8 := message.takeWhile (· ≠ 0)

def commandResult (slot : SlotMeta) (status : Status) (error : ErrorCode)
    (message : List UInt8) : CommandResult where
  request := slot.key
  actionId := slot.actionId
  actionVersion := slot.actionVersion
  status := status.code
  errorCode := error.code
  message := cString message

def encodeResult (slot : SlotMeta) (status : Status) (error : ErrorCode)
    (message : List UInt8) (capacity : Nat) : Option (List UInt8) :=
  api.encodeCommandResult (commandResult slot status error message) capacity

/-- What the cache stores for a result: the frame fields, then the payload. -/
def packResult (sequence : UInt32) (nowUs : UInt64) (payload : List UInt8) : List UInt8 :=
  toBytes 4 sequence.toNat ++ toBytes 8 nowUs.toNat ++ payload

/-- Encode, record for replay, and hand back a view over the caller's buffer. -/
def finish (processor : Processor Cache Seal) (slot : Nat) (status : Status) (error : ErrorCode)
    (message : List UInt8) (nowUs : UInt64) (reserved : Option UInt32) (target : ViewBuffer) :
    Option (ResultView × Processor Cache Seal) :=
  if processor.endpoint = none ∨ slot ≥ kCacheCapacity then none
  else do
    let occupant := processor.slotMeta slot
    let sequence ← reserved
    let payload ← encodeResult api occupant status error message kMaxResultPayloadSize
    let dedup ← api.dedup.recordResult processor.dedup slot (packResult sequence nowUs payload)
    let view : ResultView := ⟨sequence, nowUs, some target, payload.length, occupant.channel⟩
    some (view, { processor with dedup }.fill target payload)

/-- What a finished slot needed and what it left. -/
theorem finish_some {processor : Processor Cache Seal}
    (finished : finish api processor slot status error message nowUs reserved target =
      some (view, after)) :
    ∃ number payload dedup, reserved = some number ∧ slot < kCacheCapacity ∧
      encodeResult api (processor.slotMeta slot) status error message kMaxResultPayloadSize =
        some payload ∧
      api.dedup.recordResult processor.dedup slot (packResult number nowUs payload) =
        some dedup ∧
      view = ⟨number, nowUs, some target, payload.length, (processor.slotMeta slot).channel⟩ ∧
      after = { processor with dedup }.fill target payload := by
  simp only [finish] at finished
  split at finished
  · cases finished
  rename_i usable
  simp only [not_or, ge_iff_le, Nat.not_le] at usable
  simp only [Option.bind_eq_bind, Option.bind_eq_some_iff] at finished
  obtain ⟨number, left, payload, coded, dedup, kept, same⟩ := finished
  cases same
  exact ⟨number, payload, dedup, left, usable.2, coded, kept, rfl, rfl⟩

/-- A reply that is no completed execution: built in the receive buffer and
not cached. -/
def makeTransient (processor : Processor Cache Seal) (request : SlotMeta) (status : Status)
    (error : ErrorCode) (message : List UInt8) (nowUs : UInt64) (reserved : Option UInt32) :
    Option (ResultView × Processor Cache Seal) :=
  if processor.endpoint = none then none
  else do
    let sequence ← reserved
    let payload ← encodeResult api request status error message kMaxResultPayloadSize
    let view : ResultView := ⟨sequence, nowUs, some .rx, payload.length, request.channel⟩
    some (view, processor.fill .rx payload)

/-- Unpack a stored result into the receive buffer. -/
def replayView (processor : Processor Cache Seal) (stored : List UInt8) (channel : Channel) :
    ResultView × Processor Cache Seal :=
  if stored.length < kReplayPrefix then (ResultView.empty, processor)
  else
    let payloadSize := min (stored.length - kReplayPrefix) kMaxResultPayloadSize
    let view : ResultView :=
      { sequence := UInt32.ofNat (ofBytes (stored.take 4))
        timestampUs := UInt64.ofNat (ofBytes ((stored.drop 4).take 8))
        payload := some .rx
        payloadSize
        channel }
    (view, processor.fill .rx ((stored.drop kReplayPrefix).take payloadSize))

def readU16 (payload : List UInt8) (offset : Nat) : UInt16 :=
  UInt16.ofNat (ofBytes ((payload.drop offset).take 2))

/-- The identity and action of a request, peeked before it is parsed. -/
def requestMeta (key : DedupKey) (payload : List UInt8) (channel : Channel) : SlotMeta where
  key := key
  actionId := if payload.length ≥ 12 then readU16 payload 8 else 0
  actionVersion := if payload.length ≥ 12 then readU16 payload 10 else 0
  channel := channel

/-- The checks `intake` makes before it touches the cache. -/
def acceptable (processor : Processor Cache Seal) (header : Header) (payload : List UInt8) :
    Bool :=
  processor.endpoint.isSome && header.type == .command &&
    header.objectId == kCommandRequestObjectId && header.sourceId != 0 && header.bootId != 0 &&
    header.sequence != 0 && payload.length ≤ kMaxLogicalRequestSize

/-- What such a request's identity and bytes have to be. -/
structure Admissible (key : DedupKey) (payload : List UInt8) : Prop where
  source : key.sourceId ≠ 0
  boot : key.bootId ≠ 0
  sequence : key.sequence ≠ 0
  size : payload.length ≤ kMaxLogicalRequestSize

private theorem acceptable_iff {processor : Processor Cache Seal} {header : Header}
    {payload : List UInt8} :
    acceptable processor header payload = true ↔
      processor.endpoint.isSome ∧ header.type = .command ∧
        header.objectId = kCommandRequestObjectId ∧ Admissible header.key payload := by
  simp only [acceptable, Bool.and_eq_true, beq_iff_eq, bne_iff_ne, decide_eq_true_eq]
  constructor
  · rintro ⟨⟨⟨⟨⟨⟨set, type⟩, object⟩, source⟩, boot⟩, number⟩, size⟩
    exact ⟨set, type, object, source, boot, number, size⟩
  · rintro ⟨set, type, object, source, boot, number, size⟩
    exact ⟨⟨⟨⟨⟨⟨set, type⟩, object⟩, source⟩, boot⟩, number⟩, size⟩

/-- An arrival gets to the cache unless it finds the cache lock taken. -/
def heard (processor : Processor Cache Seal) (contended : Bool) (header : Header)
    (payload : List UInt8) : Bool :=
  !contended && acceptable processor header payload

theorem heard_iff {processor : Processor Cache Seal} :
    heard processor contended header payload = true ↔
      contended = false ∧ processor.endpoint.isSome ∧ header.type = .command ∧
        header.objectId = kCommandRequestObjectId ∧ Admissible header.key payload := by
  simp [heard, acceptable_iff]

/-- The outcome of an attempt to answer at receive time. -/
def answered (processor : Processor Cache Seal)
    (result : Option (ResultView × Processor Cache Seal)) : Intake × Processor Cache Seal :=
  match result with
  | some (view, after) => (.resultReady view, after)
  | none => (.ignored, processor)

/-- The part of `intake` after a fresh verdict: the slot is reserved, and a
request that cannot run finishes it right here. -/
def intakeFresh (processor : Processor Cache Seal) (slot : Nat) (header : Header)
    (payload : List UInt8) (nowUs : UInt64) (reserved : Option UInt32) (robot : Identity) :
    Intake × Processor Cache Seal :=
  let reject (error : ParseError) := answered processor
    (finish api processor slot (parseStatus error) (parseErrorCode error)
      (text (parseMessage error)) nowUs reserved .rx)
  match parseRequest api header payload robot with
  | .error error => reject error
  | .ok request =>
    if (processor.slotMeta slot).actionId = kPingActionId then
      answered processor (finish api processor slot .success .none [] nowUs reserved .rx)
    else match copyShellCommand request (kMaxShellCommandSize + 1) with
      | .error error => reject error
      | .ok command => (.ready slot command, processor)

def intake (processor : Processor Cache Seal) (contended : Bool) (header : Header)
    (payload : List UInt8) (nowUs : UInt64) (reserved : Option UInt32) (channel : Channel) :
    Intake × Processor Cache Seal :=
  if heard processor contended header payload = false then (.ignored, processor)
  else
    let request := requestMeta header.key payload channel
    let (verdict, dedup) := api.dedup.classify processor.dedup request.key payload
    let processor := { processor with dedup }
    match verdict with
    | .duplicateComplete stored =>
      let (view, after) := replayView processor stored channel
      (.resultReady view, after)
    | .duplicateInFlight => (.duplicateInProgress, processor)
    | .conflict => answered processor
        (makeTransient api processor request .rejected .requestConflict
          (text "request identity conflict") nowUs reserved)
    | .evicted | .capacityExhausted => answered processor
        (makeTransient api processor request .busy .capacityExhausted
          (text "command cache exhausted") nowUs reserved)
    | .invalidArgument => (.ignored, processor)
    | .fresh slot =>
      let processor := { processor with
        slotMeta := Function.update processor.slotMeta slot request }
      match processor.endpoint with
      | none => (.ignored, processor)
      | some robot => intakeFresh api processor slot header payload nowUs reserved robot

/-- The shell ran the slot's command; zero is TinyShell's success. -/
def complete (processor : Processor Cache Seal) (cacheSlot : Nat) (shellStatus : UInt8)
    (nowUs : UInt64) (message : List UInt8) (reserved : Option UInt32) :
    Option (ResultView × Processor Cache Seal) :=
  if cacheSlot ≥ kCacheCapacity then none
  else if shellStatus = 0 then
    finish api processor cacheSlot .success .none message nowUs reserved .shell
  else
    finish api processor cacheSlot .failed .internalError (text "shell command failed") nowUs
      reserved .shell

/-- The execution queue was full after the slot was reserved. -/
def rejectBusy (processor : Processor Cache Seal) (cacheSlot : Nat) (nowUs : UInt64)
    (reserved : Option UInt32) : Option (ResultView × Processor Cache Seal) :=
  if cacheSlot ≥ kCacheCapacity then none
  else
    finish api processor cacheSlot .busy .capacityExhausted
      (text "command execution queue full") nowUs reserved .rx

/-- What `send_result_via` hands to the endpoint. -/
structure OutgoingResult (Seal : Type) where
  sequence : UInt32
  timestampUs : UInt64
  payload : List UInt8
  sealedBy : Option Seal

/-- The seal of the request's channel; only the serial session asks for none. -/
def pickSeal (processor : Processor Cache Seal) (channel : Channel) (cleartext : Bool) :
    Option Seal :=
  if cleartext then none
  else if channel = .bEndpoint then processor.sealEndpoint
  else processor.sealLink

/-- With any key configured a missing seal is a drop, never cleartext or the
other key. -/
def sendResultVia (processor : Processor Cache Seal) (result : ResultView) (cleartext : Bool) :
    Option (OutgoingResult Seal) :=
  if result.sequence = 0 ∨ result.payload = none ∨ result.payloadSize = 0 ∨
      result.payloadSize > api.espNowMaxPayloadSize then none
  else if !cleartext && (pickSeal processor result.channel cleartext).isNone &&
      (processor.sealLink.isSome || processor.sealEndpoint.isSome) then none
  else some
    { sequence := result.sequence
      timestampUs := result.timestampUs
      payload := processor.bytesOf result
      sealedBy := pickSeal processor result.channel cleartext }

end BallyOS.Command
