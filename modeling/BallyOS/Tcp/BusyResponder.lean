import BallyOS.Btp.Interface

/-! What answers the connections that find a client active. The bytes of a pending
connection go through a decoder to the first HELLO, which is answered as BUSY, and the
connection is closed. One decoder serves all of them, one after another. -/
namespace BallyOS.Tcp
open Btp

/-- What is used of the BTP library: the serial decoder as it is constructed, its step with
the frame that it completes, the payload a throwaway session would answer a HELLO with, and
the encoders. -/
structure BusyLibrary (D Hello Frame : Type) where
  fresh : D
  push : D → UInt8 → D × Option Frame
  helloResult : Hello → Frame → UInt64 → Option (List UInt8)
  encode : Header → UInt64 → List UInt8 → Option (List UInt8)
  cobsEncode : List UInt8 → Option (List UInt8)
  kBusy : UInt8
  kCapacityExhausted : UInt16
  kHelloResult : UInt16

def kSessionMaxReplySize : Nat := 52
def kStatusOffset : Nat := 12
def kErrorCodeOffset : Nat := 14
def kLimitsOffset : Nat := 16
def kLimitsSize : Nat := 16

/-- How the robot shows itself on the link. -/
structure Identity (Hello : Type) where
  hello : Hello
  sourceId : UInt32
  bootId : UInt32

/-- One `recv` on the pending socket. -/
structure Receive where
  data : List UInt8
  nowMs : UInt64

/-- The answer to a connection, by what it left of the receive that brought it and of those
that were to come. -/
structure Answer where
  later : Nat
  unread : List UInt8
  reply : List UInt8
deriving DecidableEq

namespace BusyLibrary
variable {D Hello Frame : Type} (library : BusyLibrary D Hello Frame)

/-- The payload of a success, with the status, the error and the limits put over it. -/
def busyPayload (success : List UInt8) : List UInt8 :=
  let payload := ((success.set kStatusOffset library.kBusy).set kErrorCodeOffset
    library.kCapacityExhausted.toUInt8).set (kErrorCodeOffset + 1)
    (library.kCapacityExhausted >>> 8).toUInt8
  payload.take kLimitsOffset ++ List.replicate kLimitsSize 0 ++
    payload.drop (kLimitsOffset + kLimitsSize)

def busyHeader (identity : Identity Hello) : Header where
  type := .control
  flags := 0
  objectId := library.kHelloResult
  sourceId := identity.sourceId
  bootId := identity.bootId
  sequence := 1
  fragmentIndex := 0
  fragmentCount := 1

/-- The frame that answers a HELLO; none where the frame is no HELLO to be accepted. -/
def busyReply (identity : Identity Hello) (nowMs : UInt64) (frame : Frame) :
    Option (List UInt8) := do
  let success ← library.helloResult identity.hello frame nowMs
  if success.length ≠ kSessionMaxReplySize then none
  else
    let encoded ← library.encode (library.busyHeader identity) (nowMs * 1000)
      (library.busyPayload success)
    let cobs ← library.cobsEncode encoded
    some (0 :: cobs ++ [0])

/-- The decoder after the bytes, those it does not come to, and the reply. -/
def feed (identity : Identity Hello) (nowMs : UInt64) :
    D → List UInt8 → D × List UInt8 × Option (List UInt8)
  | decoder, [] => (decoder, [], none)
  | decoder, byte :: rest =>
    let (decoder, frame) := library.push decoder byte
    match frame.bind (library.busyReply identity nowMs) with
    | some reply => (decoder, rest, some reply)
    | none => feed identity nowMs decoder rest

/-- A pending connection, up to its answer. -/
def serve (identity : Identity Hello) : D → List Receive → D × Option Answer
  | decoder, [] => (decoder, none)
  | decoder, receive :: rest =>
    match library.feed identity receive.nowMs decoder receive.data with
    | (decoder, unread, some reply) => (decoder, some ⟨rest.length, unread, reply⟩)
    | (decoder, _, none) => serve identity decoder rest

/-- The connections in the order in which they were pending. -/
def serveAll (identity : Identity Hello) : D → List (List Receive) → List (Option Answer)
  | _, [] => []
  | decoder, connection :: rest =>
    let (decoder, answer) := library.serve identity decoder connection
    answer :: serveAll identity decoder rest

end BusyLibrary

end BallyOS.Tcp
