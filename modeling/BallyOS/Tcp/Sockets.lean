import BallyOS.Flags.Flags
import BallyOS.Library.Descriptors
import BallyOS.Library.Run

/-! The descriptors of the TCP server. Its task accepts, reads, writes and
closes, another one starts and stops it, and every access of either to what
they share is a step of its own. The kernel's table of descriptors is shared
with the rest of the robot, which may get a number again that was just closed. -/
namespace BallyOS.Tcp.Sockets
open Library Flags

def kPendingHelloDeadlineMs : UInt32 := 2000

inductive Owner
  | server
  | other
deriving Repr, DecidableEq

/-- The server's task, and whoever starts and stops the server. -/
inductive Thread
  | run
  | caller
deriving Repr, DecidableEq

/-- Where a thread is: in the loop of `run`, in `start`, in `stop`, or in one of the calls that
all of them make, with what comes behind it. -/
inductive Point
  | off
  | head
  | watchListen
  | watchClient
  | watchPending
  | select
  | deadline
  | ready
  | accept
  | casClient
  | onConnect
  | casPending
  | stampPending
  | loadActive
  | recvActive
  | drainTest
  | drainIsSet
  | drainLoad
  | drainSend
  | loadPending
  | recvPending
  | loadReply
  | sendReply
  | socket
  | bindListen
  | createMutex
  | publishListen
  | setRunning
  | createTask
  | clearRunning
  | exchangeRunning
  | waitTask
  | takeListen (next : Point)
  | exchangeClient (next : Point)
  | exchangePending (next : Point)
  | close (next : Point)
deriving Repr, DecidableEq

/-- Where the server has a descriptor: in one of its three fields, or in the hand of a thread
that takes it from one place to another. -/
inductive Slot
  | listen
  | client
  | pending
  | hand (thread : Thread)
deriving Repr, DecidableEq

/-- `seen`, `listenSeen` and the sets are variables of `run`. -/
structure System where
  table : Table Owner
  running : Bool
  slots : Slot → Option Nat
  pendingStarted : UInt32
  point : Thread → Point
  listenSeen : Option Nat
  seen : Option Nat
  watched : List Nat
  reads : List Nat
  writes : List Nat
  selected : Bool

/-- How one write of `drain_send_queue` leaves its loop. -/
inductive Sending
  | again
  | rests
  | broken
deriving Repr, DecidableEq

/-- What the system and the callbacks answer to the access that is made. -/
structure Answer where
  nowMs : Nat := 0
  reads : List Nat := []
  writes : List Nat := []
  selected : Bool := true
  descriptor : Option Nat := none
  good : Bool := true
  closes : Bool := false
  sending : Sending := .rests
deriving Repr, DecidableEq

inductive Event
  | start
  | stop
  | act (thread : Thread) (answer : Answer)
  | othersOpen (descriptor : Nat)
  | othersClose (descriptor : Nat)
deriving Repr, DecidableEq

def System.off (table : Table Owner) : System where
  table := table
  running := false
  slots := fun _ => none
  pendingStarted := 0
  point := fun _ => .off
  listenSeen := none
  seen := none
  watched := []
  reads := []
  writes := []
  selected := false

namespace System

def goto (system : System) (thread : Thread) (point : Point) : System :=
  { system with point := Function.update system.point thread point }

def move (system : System) (source target : Slot) : System :=
  { system with slots := transferred system.slots source target }

def closed (system : System) (slot : Slot) (descriptor : Nat) : System :=
  { system with
    table := Function.update system.table descriptor none
    slots := Function.update system.slots slot none }

/-- A descriptor that the kernel gives to a thread, if it gives one. -/
def given (system : System) (thread : Thread) (descriptor : Option Nat) (got failed : Point) :
    Option System :=
  match descriptor with
  | none => some (system.goto thread failed)
  | some descriptor =>
    if system.table descriptor = none then
      some ({ system with
        table := Function.update system.table descriptor (some .server)
        slots := Function.update system.slots (.hand thread) (some descriptor) }.goto thread got)
    else none

def isSet (set : List Nat) : Option Nat → Prop
  | some descriptor => descriptor ∈ set
  | none => False

instance (set : List Nat) (descriptor : Option Nat) : Decidable (isSet set descriptor) :=
  match descriptor with
  | some _ => inferInstanceAs (Decidable (_ ∈ _))
  | none => inferInstanceAs (Decidable False)

/-- The next access of a thread. -/
def act (system : System) (thread : Thread) (answer : Answer) : Option System :=
  match system.point thread with
  | .off => none
  | .head =>
    some (system.goto thread (if system.running then .watchListen
      else .exchangeClient (.exchangePending .off)))
  | .watchListen =>
    some ({ system with
      listenSeen := system.slots .listen, watched := (system.slots .listen).toList }.goto thread
      (if system.slots .listen = none then .exchangeClient (.exchangePending .off)
        else .watchClient))
  | .watchClient =>
    some ({ system with watched := system.watched ++ (system.slots .client).toList }.goto thread
      .watchPending)
  | .watchPending =>
    some ({ system with watched := system.watched ++ (system.slots .pending).toList }.goto
      thread .select)
  | .select =>
    some ({ system with
      reads := system.watched.filter (· ∈ answer.reads)
      writes := system.watched.filter (· ∈ answer.writes)
      selected := answer.selected }.goto thread .deadline)
  | .deadline =>
    some (system.goto thread (if system.slots .pending ≠ none ∧
        millis answer.nowMs - system.pendingStarted ≥ kPendingHelloDeadlineMs then
      .exchangePending .ready else .ready))
  | .ready => some (system.goto thread (if system.selected then .accept else .head))
  | .accept =>
    if isSet system.reads system.listenSeen then
      system.given thread answer.descriptor .casClient .loadActive
    else some (system.goto thread .loadActive)
  | .casClient =>
    some (if system.slots .client = none then
      (system.move (.hand thread) .client).goto thread .onConnect
      else system.goto thread .casPending)
  | .onConnect =>
    some (system.goto thread (if answer.closes then .exchangeClient .loadActive else .loadActive))
  | .casPending =>
    some (if system.slots .pending = none then
      (system.move (.hand thread) .pending).goto thread .stampPending
      else system.goto thread (.close .loadActive))
  | .stampPending =>
    some ({ system with pendingStarted := millis answer.nowMs }.goto thread .loadActive)
  | .loadActive => some ({ system with seen := system.slots .client }.goto thread .recvActive)
  | .recvActive =>
    some (system.goto thread (if isSet system.reads system.seen ∧ (!answer.good ∨ answer.closes)
      then .exchangeClient .drainTest else .drainTest))
  | .drainTest =>
    some (system.goto thread (if system.slots .client = none then .loadPending else .drainIsSet))
  -- with no client any more the set is looked up at -1
  | .drainIsSet =>
    some (system.goto thread (if isSet system.writes (system.slots .client) ∨
      system.slots .client = none ∧ answer.good then .drainLoad else .loadPending))
  | .drainLoad =>
    some ({ system with seen := system.slots .client }.goto thread
      (if answer.good then .drainSend else .loadPending))
  | .drainSend =>
    some (system.goto thread (if system.seen = none then .loadPending
      else match answer.sending with
        | .again => .drainSend
        | .rests => .loadPending
        | .broken => .exchangeClient .loadPending))
  | .loadPending => some ({ system with seen := system.slots .pending }.goto thread .recvPending)
  | .recvPending =>
    some (system.goto thread (if isSet system.reads system.seen then
      if !answer.good then .exchangePending .head
      else if answer.closes then .loadReply else .head
      else .head))
  | .loadReply => some ({ system with seen := system.slots .pending }.goto thread .sendReply)
  | .sendReply => some (system.goto thread (.exchangePending .head))
  | .socket => system.given thread answer.descriptor .bindListen .off
  | .bindListen =>
    some (system.goto thread (if answer.good then .createMutex else .close .off))
  | .createMutex =>
    some (system.goto thread (if answer.good then .publishListen else .close .off))
  | .publishListen =>
    some ((system.move (.hand thread) .listen).goto thread .setRunning)
  | .setRunning => some ({ system with running := true }.goto thread .createTask)
  | .createTask =>
    some (if answer.good then (system.goto .run .head).goto thread .off
      else system.goto thread .clearRunning)
  | .clearRunning => some ({ system with running := false }.goto thread (.takeListen .off))
  | .exchangeRunning =>
    some ({ system with running := false }.goto thread (if system.running then
      .takeListen (.exchangeClient (.exchangePending .waitTask)) else .off))
  | .waitTask =>
    some (if system.point .run = .off then system.goto thread .off else system)
  | .takeListen next => some ((system.move .listen (.hand thread)).goto thread (.close next))
  | .exchangeClient next => some ((system.move .client (.hand thread)).goto thread (.close next))
  | .exchangePending next => some ((system.move .pending (.hand thread)).goto thread (.close next))
  | .close next =>
    match system.slots (.hand thread) with
    | none => some (system.goto thread next)
    | some descriptor => some ((system.closed (.hand thread) descriptor).goto thread next)

end System

/-- Calls of `start` and `stop` come one after the other, as the routine makes them. -/
def step : Machine System Event := fun system event =>
  match event with
  | .start =>
    if system.point .caller = .off then
      some (if system.running then system else system.goto .caller .socket)
    else none
  | .stop =>
    if system.point .caller = .off then some (system.goto .caller .exchangeRunning) else none
  | .act thread answer => system.act thread answer
  | .othersOpen descriptor =>
    if system.table descriptor = none then
      some { system with table := Function.update system.table descriptor (some .other) }
    else none
  | .othersClose descriptor =>
    if system.table descriptor = some .other then
      some { system with table := Function.update system.table descriptor none }
    else none

end BallyOS.Tcp.Sockets
