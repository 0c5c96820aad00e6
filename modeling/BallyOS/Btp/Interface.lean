import Mathlib.Data.List.Basic

/-! What this program uses of the BTP library, which lives outside the
repository: header fields, message codecs and the deduplication cache. The
codecs and the cache are parameters; what the program relies on is stated as
laws beside them. -/
namespace BallyOS.Btp

inductive MessageType
  | invalid | log | command | telemetry | terminal | control
deriving Repr, DecidableEq

/-- Which two ends a message is between. -/
inductive Channel
  | aConsole | bEndpoint | cLink
deriving Repr, DecidableEq

/-- The links the robot talks over, each with its own receive task. -/
inductive Link
  | espNow | tcp | ble | serial
deriving Repr, DecidableEq

/-- The serial link runs without a key, replies included. -/
def Link.cleartext (link : Link) : Bool := link = .serial

structure Header where
  type : MessageType
  flags : UInt16
  objectId : UInt16
  sourceId : UInt32
  bootId : UInt32
  sequence : UInt32
  fragmentIndex : UInt8
  fragmentCount : UInt8
deriving Repr, DecidableEq

inductive MessageError
  | payloadTooShort | reservedNotZero | trailingBytes | lengthOverflow | countTooLarge | zeroField
deriving Repr, DecidableEq

structure CommandRequest where
  targetSourceId : UInt32
  targetBootId : UInt32
  actionId : UInt16
  actionVersion : UInt16
  parameters : List UInt8
deriving Repr, DecidableEq

/-- The frame format of one transport: its size limits and the decoder that
validates a whole frame. -/
structure FrameCodec where
  minimumFrameSize : Nat
  maxFrameSize : Nat
  decode : List UInt8 → Option Header

/-- The identity of one request, as its requester chose it. -/
structure DedupKey where
  sourceId : UInt32
  bootId : UInt32
  sequence : UInt32
deriving Repr, DecidableEq

def Header.key (header : Header) : DedupKey := ⟨header.sourceId, header.bootId, header.sequence⟩

structure CommandResult where
  request : DedupKey
  actionId : UInt16
  actionVersion : UInt16
  status : UInt8
  errorCode : UInt16
  message : List UInt8
deriving Repr, DecidableEq

inductive DedupVerdict
  | fresh (slot : Nat)
  | duplicateInFlight
  | duplicateComplete (stored : List UInt8)
  | conflict
  | evicted
  | capacityExhausted
  | invalidArgument
deriving Repr, DecidableEq

/-- What a slot holds: the verbatim request, and its result once recorded. -/
structure DedupEntry where
  key : DedupKey
  request : List UInt8
  result : Option (List UInt8)
deriving Repr, DecidableEq

/-- The cache's two operations, and what can be observed of its state: the
occupant of a slot and whether an identity was ever taken as fresh. -/
structure DedupCache (State : Type) where
  initial : State
  classify : State → DedupKey → List UInt8 → DedupVerdict × State
  recordResult : State → Nat → List UInt8 → Option State
  entry : State → Nat → Option DedupEntry
  seen : State → DedupKey → Prop

/-- The documented behaviour of the cache. An identity is fresh at most once
and gets a slot no running request holds; while its entry is cached it is
answered by its bytes; a result is recorded once, in a slot in flight. -/
structure DedupCache.Lawful (cache : DedupCache State) (capacity : Nat) : Prop where
  initialEntry : ∀ slot, cache.entry cache.initial slot = none
  entryWithin : ∀ state slot entry, cache.entry state slot = some entry → slot < capacity
  fresh : ∀ state key request slot next,
    cache.classify state key request = (.fresh slot, next) →
      slot < capacity ∧ ¬cache.seen state key ∧ cache.seen next key ∧
      (∀ entry, cache.entry state slot = some entry → entry.result ≠ none) ∧
      cache.entry next slot = some ⟨key, request, none⟩ ∧
      ∀ other, other ≠ slot → cache.entry next other = cache.entry state other
  notFresh : ∀ state key request verdict next,
    cache.classify state key request = (verdict, next) → (∀ slot, verdict ≠ .fresh slot) →
      ∀ slot, cache.entry next slot = cache.entry state slot
  seenStays : ∀ state key request verdict next other,
    cache.classify state key request = (verdict, next) →
      cache.seen state other → cache.seen next other
  cached : ∀ state slot entry request, cache.entry state slot = some entry →
    (cache.classify state entry.key request).1 =
      if request = entry.request then
        match entry.result with
        | none => .duplicateInFlight
        | some stored => .duplicateComplete stored
      else .conflict
  complete : ∀ state key request stored next,
    cache.classify state key request = (.duplicateComplete stored, next) →
      ∃ slot, cache.entry state slot = some ⟨key, request, some stored⟩
  record : ∀ state slot bytes next, cache.recordResult state slot bytes = some next →
    (∃ entry, cache.entry state slot = some entry ∧ entry.result = none ∧
      cache.entry next slot = some { entry with result := some bytes }) ∧
    (∀ other, other ≠ slot → cache.entry next other = cache.entry state other) ∧
    ∀ key, cache.seen state key → cache.seen next key

/-- The library as the command path calls it. Encoding gets the capacity of
the buffer it writes to. -/
structure Api (Cache : Type) where
  decodeCommandRequest : List UInt8 → Except MessageError CommandRequest
  encodeCommandResult : CommandResult → Nat → Option (List UInt8)
  espNowMaxPayloadSize : Nat
  dedup : DedupCache Cache

/-- An encoded result stays within the buffer it was given. -/
def Api.EncodesWithin (api : Api Cache) : Prop :=
  ∀ result capacity bytes, api.encodeCommandResult result capacity = some bytes →
    bytes.length ≤ capacity

/-- An encoded result is a fixed part and the message, and encoding fails
exactly when that does not fit. -/
def Api.EncodesExactly (api : Api Cache) (fixed : Nat) : Prop :=
  ∀ result capacity, (api.encodeCommandResult result capacity).isSome ↔
    fixed + result.message.length ≤ capacity

/-- A result of at most `size` bytes can be recorded for a request in flight. -/
def DedupCache.RecordsInFlight (cache : DedupCache State) (size : Nat) : Prop :=
  ∀ state slot entry bytes, cache.entry state slot = some entry → entry.result = none →
    bytes.length ≤ size → (cache.recordResult state slot bytes).isSome

end BallyOS.Btp
