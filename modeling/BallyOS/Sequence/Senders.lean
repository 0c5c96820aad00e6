import BallyOS.Command.Reservation
import BallyOS.Telemetry.Publisher
import Mathlib.Data.List.Defs

/-! Everything in the robot that numbers a message and seals it: the endpoint
that `protocol` shares with the radio node, the endpoint of each direct link's
session, and the producers that send through them. Every endpoint has the one
identity of the robot's boot and a counter of its own. -/
namespace BallyOS.Sequence
open Btp Command Library Telemetry

def kTerminalOutObjectId : UInt16 := 0x0002
def kStatusObjectId : UInt16 := 0x0009
def kBtpAeadTagSize : Nat := 16

/-- Which counter a number came from. A direct link has a new one with every
session. -/
inductive Allocator
  | protocol
  | session (link : Link) (number : Nat)
deriving Repr, DecidableEq

/-- A direct link's node, with a ghost number for its session. -/
structure Node (Counter : Type) where
  session : Nat
  endpoint : Counter

structure Endpoints (Counter : Type) where
  protocol : Counter
  node : Link → Option (Node Counter)
  started : Link → Nat

/-- One message sealed, or in the clear, under a header identity. The counter
of its number and the message the number was reserved for are ghosts. -/
structure Departure where
  sealedBy : Option SealFn
  triple : DedupKey
  message : Message
  allocator : Allocator
  made : Message
deriving DecidableEq

structure Senders (Cache Counter : Type) where
  identity : Identity
  keysLoaded : Bool
  endpoints : Endpoints Counter
  tasks : Tasks Cache SealFn
  telemetry : Publisher
  left : List Departure

inductive Event
  | publish (topicId : UInt16) (payload : List UInt8) (timestampUs : UInt64) (available : Bool)
  | publishSystemMonitor (text : List UInt8) (timestampUs : UInt64) (available : Bool)
  | flush (maxSamples : Nat) (subscriberCount : Link → UInt16 → UInt16)
  | pump (link : Link) (bytes : List UInt8) (nowUs : UInt64)
  | command (event : TaskEvent)
  | status (payload : List UInt8) (timestampUs : UInt64)
  | answer (link : Link) (channel : Channel) (message : Message)
  | startSession (link : Link) (begun : Bool)
  | disconnect (link : Link)

variable {Cache Counter : Type}

namespace Endpoints

/-- The endpoint a link's messages are numbered by, while it has one. -/
def of (endpoints : Endpoints Counter) (link : Link) : Option (Allocator × Counter) :=
  if link = .espNow then some (.protocol, endpoints.protocol)
  else (endpoints.node link).map fun node => (.session link node.session, node.endpoint)

/-- The endpoints after a link's one has moved on. -/
def put (endpoints : Endpoints Counter) (link : Link) (counter : Counter) : Endpoints Counter :=
  if link = .espNow then { endpoints with protocol := counter }
  else { endpoints with
    node := Function.update endpoints.node link
      ((endpoints.node link).map fun node => { node with endpoint := counter }) }

end Endpoints

/-- The seal of a link's telemetry and terminal output. -/
def sealOf (link : Link) : Option SealFn := if link.cleartext then none else some .radioSealE

/-- The seal of a node's own answers; only the radio node tells channels apart. -/
def answerSeal (link : Link) (channel : Channel) : Option SealFn :=
  if link = .espNow then some (if channel = .bEndpoint then .radioSealE else .radioSeal)
  else sealOf link

/-- What a TERMINAL_OUT chunk may hold on a link. -/
def terminalOutStride (maxPayload : Link → Nat) (link : Link) : Nat :=
  if (sealOf link).isSome then maxPayload link - kBtpAeadTagSize else maxPayload link

namespace Senders

/-- A message under a number; without loaded keys a seal fails and nothing is sent. -/
def depart (senders : Senders Cache Counter) (sealedBy : Option SealFn) (allocator : Allocator)
    (number : UInt32) (message made : Message) : List Departure :=
  if sealedBy.isSome && !senders.keysLoaded then []
  else [⟨sealedBy, ⟨senders.identity.sourceId, senders.identity.bootId, number⟩, message,
    allocator, made⟩]

/-- The bound targets; the radio's is always bound, a direct link's while it
has a session. -/
def collectTargets (senders : Senders Cache Counter)
    (subscriberCount : Link → UInt16 → UInt16) : List Target :=
  ([Link.espNow, .tcp, .ble, .serial].filter fun link =>
    link = .espNow || (senders.endpoints.node link).isSome).map fun link =>
      ⟨link, some (subscriberCount link)⟩

/-- The frames of one telemetry flush, under the numbers reserved at publish. -/
def telemetryDepartures (senders : Senders Cache Counter) (targets : List Target)
    (taken : List Sample) : List Departure :=
  (taken.flatMap (deliver targets)).flatMap fun (link, sample) =>
    senders.depart (sealOf link) .protocol sample.sequence sample.message sample.message

/-- `send_result`, over whichever link: the view's number, and the bytes that
the view's buffer holds now. -/
def resultDepartures (api : Api Cache) (senders : Senders Cache Counter) (reply : Reply)
    (cleartext : Bool) : List Departure :=
  match sendResultVia api senders.tasks.world.processor reply.view cleartext with
  | none => []
  | some outgoing => senders.depart outgoing.sealedBy .protocol outgoing.sequence
      (resultMessage outgoing.timestampUs outgoing.payload) reply.made

end Senders

/-- `emit_terminal_out`: one message for each chunk of the output. -/
def terminalMessages (maxPayload : Link → Nat) (link : Link) (bytes : List UInt8)
    (nowUs : UInt64) : List Message :=
  (bytes.toChunks (terminalOutStride maxPayload link)).map fun chunk =>
    ⟨.terminal, kTerminalOutObjectId, nowUs, chunk⟩

variable (api : Api Cache) (sequencer : Sequencer Counter) (maxPayload : Link → Nat)

namespace Senders

/-- The messages an event sends through a link's endpoint with `send_logical`,
which numbers each by itself. -/
def logicalSends : Event → Option (Link × Option SealFn × List Message)
  | .pump link bytes nowUs => some (link, sealOf link, terminalMessages maxPayload link bytes nowUs)
  | .status payload timestampUs =>
    if payload = [] then none
    else some (.espNow, some .radioSeal, [⟨.control, kStatusObjectId, timestampUs, payload⟩])
  | .answer link channel message => some (link, answerSeal link channel, [message])
  | _ => none

/-- `send_logical` for each message in turn: what goes out. -/
def logicalDepartures (senders : Senders Cache Counter)
    (sends : Option (Link × Option SealFn × List Message)) : List Departure :=
  match sends with
  | none => []
  | some (link, sealedBy, messages) =>
    match senders.endpoints.of link with
    | none => []
    | some (allocator, counter) =>
      (sequencer.numberAll counter messages).1.flatMap fun (number, message) =>
        senders.depart sealedBy allocator number message message

/-- `send_logical` for each message in turn: where it leaves the endpoint. -/
def sendLogical (senders : Senders Cache Counter)
    (sends : Option (Link × Option SealFn × List Message)) : Senders Cache Counter :=
  match sends with
  | none => senders
  | some (link, _, messages) =>
    match senders.endpoints.of link with
    | none => senders
    | some (_, counter) => { senders with
        endpoints := senders.endpoints.put link (sequencer.numberAll counter messages).2 }

theorem sendLogical_tasks (senders : Senders Cache Counter)
    (sends : Option (Link × Option SealFn × List Message)) :
    (senders.sendLogical sequencer sends).tasks = senders.tasks := by
  unfold sendLogical
  split
  · rfl
  split <;> rfl

/-- What an event seals, or sends in the clear. -/
def departures (senders : Senders Cache Counter) (event : Event) : List Departure :=
  match event with
  | .flush maxSamples subscriberCount =>
    let targets := senders.collectTargets subscriberCount
    senders.telemetryDepartures targets (flush senders.telemetry maxSamples targets).1
  | .command (.reply link) =>
    match senders.tasks.receivers link with
    | .replying reply => senders.resultDepartures api reply link.cleartext
    | _ => []
  | .command (.replyShell cleartext) =>
    match senders.tasks.shell with
    | some reply => senders.resultDepartures api reply cleartext
    | none => []
  | other => senders.logicalDepartures sequencer (logicalSends maxPayload other)

/-- The endpoints after `protocol` reserved a sequence, when it did. -/
def reserve (senders : Senders Cache Counter) (reserves : Bool) : Endpoints Counter :=
  if reserves then
    senders.endpoints.put .espNow (sequencer.advanced senders.endpoints.protocol)
  else senders.endpoints

/-- What `try_reserve_sequence` returns, which fails when another task is at it. -/
def tryReserve (senders : Senders Cache Counter) (available : Bool) : Option UInt32 :=
  if available then sequencer.upcoming senders.endpoints.protocol else none

/-- The senders after an event, but for what left. -/
def advance (senders : Senders Cache Counter) (event : Event) : Option (Senders Cache Counter) :=
  match event with
  | .publish topicId payload timestampUs available =>
    let (result, telemetry) :=
      enqueue senders.telemetry topicId payload timestampUs (senders.tryReserve sequencer available)
    some { senders with telemetry, endpoints := senders.reserve sequencer (result = .queued) }
  | .publishSystemMonitor text timestampUs available =>
    let (result, telemetry) :=
      publishSystemMonitor senders.telemetry text timestampUs (senders.tryReserve sequencer available)
    some { senders with telemetry, endpoints := senders.reserve sequencer (result = .queued) }
  | .flush maxSamples subscriberCount =>
    some { senders with
      telemetry :=
        (flush senders.telemetry maxSamples (senders.collectTargets subscriberCount)).2 }
  | .command event =>
    (taskStep api senders.tasks (event.withReserved
        (sequencer.upcoming senders.endpoints.protocol))).map fun tasks =>
      { senders with
        tasks
        endpoints := senders.reserve sequencer (event.reserves api senders.tasks) }
  | .startSession link begun =>
    if link = .espNow then none
    else some { senders with endpoints := { senders.endpoints with
      node := Function.update senders.endpoints.node link
        (if begun then some ⟨senders.endpoints.started link, sequencer.begun⟩ else none)
      started := Function.update senders.endpoints.started link
        (senders.endpoints.started link + 1) } }
  | .disconnect link =>
    if link = .espNow then none
    else some { senders with endpoints := { senders.endpoints with
      node := Function.update senders.endpoints.node link none } }
  | other => some (senders.sendLogical sequencer (logicalSends maxPayload other))

end Senders

def step : Machine (Senders Cache Counter) Event := fun senders event =>
  (senders.advance api sequencer maxPayload event).map fun next =>
    { next with left := senders.left ++ senders.departures api sequencer maxPayload event }

/-- The robot after boot, before any direct link has a session. -/
def Senders.start (identity : Identity) (keysLoaded : Bool) : Senders Cache Counter where
  identity := identity
  keysLoaded := keysLoaded
  endpoints := ⟨sequencer.begun, fun _ => none, fun _ => 0⟩
  tasks := Tasks.start
    (Processor.configured api identity (some .radioSeal) (some .radioSealE))
  telemetry := configure .empty
  left := []

/-- The condition on a run: a number that key E already sealed under is only
used again by the endpoint it came from, and only for a reply that is sent as
it was made, then and now. -/
def OwnNumbers (senders : Senders Cache Counter) (event : Event) : Prop :=
  ∀ departure ∈ senders.departures api sequencer maxPayload event, ∀ earlier ∈ senders.left,
    departure.sealedBy = some .radioSealE → earlier.sealedBy = some .radioSealE →
    departure.triple = earlier.triple →
      departure.allocator = earlier.allocator ∧
        departure.message = departure.made ∧ earlier.message = earlier.made

end BallyOS.Sequence
