import Mathlib.Data.List.DropRight
import Mathlib.Logic.Function.Basic
import BallyOS.Library.Run

/-! The terminal responder under its three tasks: received bytes are buffered in
the origin's slot, `pump` takes them to the slot's line editor and submits the
lines, and the shell hands back each command's output. A pass of `pump` over one
slot takes what the lock guards, and does the rest without it. -/
namespace BallyOS.Terminal
open Library

/-- A byte string, one character a byte. -/
abbrev Text := List Char

structure Origin where
  sourceId : UInt32
  bootId : UInt32
deriving Repr, DecidableEq

inductive LinkTarget
  | espNow
  | tcp
  | ble
  | serial
deriving Repr, DecidableEq

/-- The line editor: each operation gives the editor after it and what it emits. -/
structure LineEditor (E : Type) where
  reset : E → E
  setPrompt : Text → E → E × Text
  writeResponse : Text → E → E × Text
  feed : Text → E → E
  /-- The next completed line, if there is one. -/
  poll : E → E × Text × Option Text
  writeAsyncOutput : Text → E → E × Text
  refreshLine : E → E × Text

structure Config (E : Type) where
  editor : LineEditor E
  prompt : Text

def kMaxPendingIn : Nat := 1024
def kMaxCommandOut : Nat := 2048
def kMaxAsyncOut : Nat := 1024

/-- The half of a slot that the lock guards. `session` counts the allocations, and
tells one slot of an origin from a later one. -/
structure Slot where
  used : Bool := false
  origin : Origin := ⟨0, 0⟩
  lastUsed : UInt64 := 0
  target : LinkTarget := .espNow
  input : Text := []
  pendingOut : Text := []
  asyncOut : Text := []
  resultReady : Bool := false
  needsEditorReset : Bool := false
  session : Nat := 0

/-- The half that only `pump` touches. `owner` is the session it was last reset for. -/
structure Typing (E : Type) where
  editor : E
  promptPainted : Bool := false
  awaitingResult : Bool := false
  pendingLine : Text := []
  asyncPromptDirty : Bool := false
  lastAsyncOutput : UInt64 := 0
  owner : Option Nat := none

/-- What `pump` took of a slot under the lock. -/
structure Pass where
  index : Fin 3
  now : UInt64
  origin : Origin
  session : Nat
  target : LinkTarget
  needsReset : Bool
  result : Option Text
  input : Text
  asyncOutput : Text

inductive Pump
  | idle
  | taken (pass : Pass)
  | polling (pass : Pass) (out : Text)

/-- A line, with the origin that typed it and the session it was typed in. -/
structure Command where
  origin : Origin
  session : Nat
  line : Text
deriving DecidableEq

structure Responder (E : Type) where
  slots : Fin 3 → Slot
  typings : Fin 3 → Typing E
  pump : Pump := .idle
  bound : LinkTarget → Bool
  /-- The submitted commands the shell has not finished, oldest first. -/
  queue : List Command := []
  sent : List (LinkTarget × Text) := []
  linesSubmitted : UInt32 := 0
  linesDroppedBusy : UInt32 := 0
  inBytesDropped : UInt32 := 0
  asyncLinesDropped : UInt32 := 0
  originsSeen : UInt32 := 0
  originsEvicted : UInt32 := 0
  /-- The slots given out so far: the origin and the slot of each session. -/
  sessions : List (Origin × Fin 3) := []
  /-- The lines the editors completed, and what became of them. -/
  typed : List Command := []
  submitted : List Command := []
  dropped : List Command := []

/-- One line of a command's output as the terminal shows it. -/
def renderLine (line : Text) : Text :=
  match line.rdropWhile fun c => c = '\r' || c = ' ' with
  | [] => []
  | shown => ['!', ' '] ++ shown ++ ['\r', '\n']

def renderCommandOutput (text : Text) (status : UInt8) : Text :=
  (text.splitOn '\n').flatMap renderLine ++
    if status = 0 then []
    else "! [status=".toList ++ Nat.toDigits 10 status.toNat ++ "]\r\n".toList

/-- What one command may mirror back at most. -/
def truncateOutput (rendered : Text) : Text :=
  if rendered.length > kMaxCommandOut then
    rendered.take kMaxCommandOut ++ "\r\n! [output truncated]\r\n".toList
  else rendered

def busyNotice : Text := "! busy, command dropped".toList

namespace Responder
variable {E : Type}

def find (world : Responder E) (origin : Origin) : Option (Fin 3) :=
  [0, 1, 2].find? fun i => (world.slots i).used && (world.slots i).origin = origin

/-- The first free slot, or the one used longest ago. -/
def victimFrom (world : Responder E) (victim : Fin 3) : List (Fin 3) → Fin 3
  | [] => victim
  | i :: rest =>
    if (world.slots i).used = false then i
    else if (world.slots i).lastUsed < (world.slots victim).lastUsed then world.victimFrom i rest
    else world.victimFrom victim rest

def victim (world : Responder E) : Fin 3 :=
  if (world.slots 0).used = false then 0 else world.victimFrom 0 [1, 2]

def setSlot (world : Responder E) (i : Fin 3) (slot : Slot) : Responder E :=
  { world with slots := Function.update world.slots i slot }

/-- The slot of the origin, given out anew when there is none. What only `pump`
touches stays as it is until the next pass resets it. -/
def findOrAlloc (world : Responder E) (origin : Origin) (now : UInt64) : Fin 3 × Responder E :=
  match world.find origin with
  | some i => (i, world)
  | none =>
    let i := world.victim
    let given := world.setSlot i { world.slots i with
      used := true
      origin
      lastUsed := now
      needsEditorReset := true
      input := []
      pendingOut := []
      asyncOut := []
      resultReady := false
      session := world.sessions.length }
    (i, { given with
      originsEvicted := world.originsEvicted + if (world.slots i).used then 1 else 0
      originsSeen := world.originsSeen + 1
      sessions := world.sessions ++ [(origin, i)] })

/-- `locked` tells whether the lock was had in time. -/
def onTerminalIn (world : Responder E) (target : LinkTarget) (origin : Origin)
    (timestamp : UInt64) (plaintext : Text) (locked : Bool) : Responder E :=
  if plaintext = [] then world
  else if locked = false then
    { world with inBytesDropped := world.inBytesDropped + UInt32.ofNat plaintext.length }
  else
    let (i, found) := world.findOrAlloc origin timestamp
    let slot := found.slots i
    let taken := plaintext.take (kMaxPendingIn - slot.input.length)
    { found.setSlot i { slot with
        target
        input := slot.input ++ taken } with
      inBytesDropped :=
        found.inBytesDropped + UInt32.ofNat (plaintext.length - taken.length) }

def bindTarget (world : Responder E) (target : LinkTarget) : Responder E :=
  { world with bound := Function.update world.bound target true }

/-- Without the lock the slots stay, for a later eviction. -/
def unbindTarget (world : Responder E) (target : LinkTarget) (locked : Bool) : Responder E :=
  { world with
    bound := Function.update world.bound target false
    slots := fun i =>
      if locked ∧ (world.slots i).used ∧ (world.slots i).target = target then
        { world.slots i with used := false }
      else world.slots i }

/-- The shell's oldest command is done. -/
def deliverCommandOutput (world : Responder E) (origin : Origin) (text : Text) (status : UInt8) :
    Responder E :=
  match world.find origin with
  | some i => world.setSlot i { world.slots i with
      pendingOut := truncateOutput (renderCommandOutput text status)
      resultReady := true }
  | none => world

def pushAsyncOutput (world : Responder E) (origin : Origin) (text : Text) (locked : Bool) :
    Responder E :=
  let line := ((['!', ' '] ++ text).rdropWhile fun c => c = '\r' || c = '\n' || c = ' ') ++
    ['\r', '\n']
  if text = [] then world
  else if locked = false then { world with asyncLinesDropped := world.asyncLinesDropped + 1 }
  else
    match world.find origin with
    | none => world
    | some i =>
      let slot := world.slots i
      if slot.asyncOut.length + line.length ≤ kMaxAsyncOut then
        world.setSlot i { slot with asyncOut := slot.asyncOut ++ line }
      else { world with asyncLinesDropped := world.asyncLinesDropped + 1 }

/-- What a pass takes under the lock. -/
def passOf (slot : Slot) (i : Fin 3) (now : UInt64) : Pass :=
  { index := i
    now
    origin := slot.origin
    session := slot.session
    target := slot.target
    needsReset := slot.needsEditorReset
    result := if slot.resultReady then some slot.pendingOut else none
    input := slot.input
    asyncOutput := slot.asyncOut }

def pumpTake (world : Responder E) (i : Fin 3) (now : UInt64) : Responder E :=
  { world.setSlot i { world.slots i with
      lastUsed := now
      needsEditorReset := false
      pendingOut := if (world.slots i).resultReady then [] else (world.slots i).pendingOut
      resultReady := false
      input := []
      asyncOut := [] } with
    pump := .taken (passOf (world.slots i) i now) }

end Responder

namespace Typing
variable {E : Type}

def emit (typing : Typing E) (edited : E × Text) (out : Text) : Typing E × Text :=
  ({ typing with editor := edited.1 }, out ++ edited.2)

def restart (config : Config E) (typing : Typing E) (pass : Pass) : Typing E :=
  if pass.needsReset then { editor := config.editor.reset typing.editor, owner := pass.session }
  else typing

def paint (config : Config E) (typing : Typing E) : Typing E × Text :=
  if typing.promptPainted then (typing, [])
  else { typing with promptPainted := true }.emit
    (config.editor.setPrompt config.prompt typing.editor) []

/-- The result of the command in flight, if it came. -/
def answer (config : Config E) (typing : Typing E) (result : Option Text) (out : Text) :
    Typing E × Text :=
  match result with
  | some text => { typing with awaitingResult := false }.emit
      (config.editor.writeResponse text typing.editor) out
  | none => (typing, out)

def hear (config : Config E) (typing : Typing E) (input : Text) : Typing E :=
  if input = [] then typing else { typing with editor := config.editor.feed input typing.editor }

/-- A pass before it submits anything: the reset, the prompt, the result that
came, and the input. -/
def prepare (config : Config E) (typing : Typing E) (pass : Pass) : Typing E × Text :=
  let (prompted, out) := (typing.restart config pass).paint config
  let (answered, out) := prompted.answer config pass.result out
  (answered.hear config pass.input, out)

/-- The end of a pass: the output nobody asked for, above the prompt. -/
def finish (config : Config E) (typing : Typing E) (pass : Pass) (out : Text) : Typing E × Text :=
  if pass.asyncOutput ≠ [] then
    { typing with
      asyncPromptDirty := true
      lastAsyncOutput := pass.now }.emit
        (config.editor.writeAsyncOutput pass.asyncOutput typing.editor) out
  else if typing.asyncPromptDirty ∧ 250000 ≤ pass.now - typing.lastAsyncOutput then
    { typing with asyncPromptDirty := false }.emit (config.editor.refreshLine typing.editor) out
  else (typing, out)

end Typing

namespace Responder
variable {E : Type}

/-- The pass goes on with this state of the typing. -/
def settle (world : Responder E) (pass : Pass) (out : Text) (typing : Typing E) : Responder E :=
  { world with
    typings := Function.update world.typings pass.index typing
    pump := .polling pass out }

/-- The queue took the line. -/
def acceptLine (world : Responder E) (pass : Pass) (out : Text) (typing : Typing E) (line : Text) :
    Responder E :=
  { world.settle pass out { typing with awaitingResult := true } with
    queue := world.queue ++ [⟨pass.origin, pass.session, line⟩]
    submitted := world.submitted ++ [⟨pass.origin, pass.session, line⟩]
    linesSubmitted := world.linesSubmitted + 1 }

/-- The line is dropped, and the terminal is told. -/
def refuseLine (config : Config E) (world : Responder E) (pass : Pass) (out : Text)
    (typing : Typing E) (line : Text) : Responder E :=
  let (told, out) := typing.emit (config.editor.writeResponse busyNotice typing.editor) out
  { world.settle pass out told with
    dropped := world.dropped ++ [⟨pass.origin, pass.session, line⟩]
    linesDroppedBusy := world.linesDroppedBusy + 1 }

/-- `accepted` is what `submit_` returns. -/
def submitLine (config : Config E) (world : Responder E) (pass : Pass) (out : Text)
    (typing : Typing E) (line : Text) (accepted : Bool) : Responder E :=
  if accepted then world.acceptLine pass out typing line
  else refuseLine config world pass out typing line

def pumpBegin (config : Config E) (world : Responder E) (pass : Pass) (accepted : Bool) :
    Responder E :=
  let (typing, out) := (world.typings pass.index).prepare config pass
  if typing.awaitingResult = false ∧ typing.pendingLine ≠ [] then
    submitLine config world pass out { typing with pendingLine := [] } typing.pendingLine accepted
  else world.settle pass out typing

def typeLine (world : Responder E) (pass : Pass) (line : Text) : Responder E :=
  { world with typed := world.typed ++ [⟨pass.origin, pass.session, line⟩] }

/-- What the editor completed: submitted, or held behind the command in flight. -/
def takeLine (config : Config E) (world : Responder E) (pass : Pass) (out : Text)
    (typing : Typing E) (line : Text) (accepted : Bool) : Responder E :=
  if typing.awaitingResult then
    if typing.pendingLine = [] then world.settle pass out { typing with pendingLine := line }
    else refuseLine config world pass out typing line
  else submitLine config world pass out typing line accepted

def pumpFinish (config : Config E) (world : Responder E) (pass : Pass) (out : Text)
    (typing : Typing E) : Responder E :=
  let (finished, out) := typing.finish config pass out
  { world.settle pass out finished with
    pump := .idle
    sent :=
      if out = [] ∨ world.bound pass.target = false then world.sent
      else world.sent ++ [(pass.target, out)] }

def pumpPoll (config : Config E) (world : Responder E) (pass : Pass) (out : Text)
    (accepted : Bool) : Responder E :=
  let typing := world.typings pass.index
  match config.editor.poll typing.editor with
  | (editor, emitted, some line) =>
    takeLine config (world.typeLine pass line) pass (out ++ emitted) { typing with editor } line
      accepted
  | (editor, emitted, none) =>
    pumpFinish config world pass (out ++ emitted) { typing with editor }

end Responder

inductive Event
  | terminalIn (target : LinkTarget) (origin : Origin) (timestamp : UInt64) (plaintext : Text)
      (locked : Bool)
  | bind (target : LinkTarget)
  | unbind (target : LinkTarget) (locked : Bool)
  | asyncOutput (origin : Origin) (text : Text) (locked : Bool)
  /-- The shell finished the oldest command. -/
  | commandResult (text : Text) (status : UInt8)
  | pumpTake (i : Fin 3) (now : UInt64)
  | pumpBegin (accepted : Bool)
  | pumpPoll (accepted : Bool)

def step {E : Type} (config : Config E) : Machine (Responder E) Event
  | world, .terminalIn target origin timestamp plaintext locked =>
    some (world.onTerminalIn target origin timestamp plaintext locked)
  | world, .bind target => some (world.bindTarget target)
  | world, .unbind target locked =>
    if target = .espNow then none else some (world.unbindTarget target locked)
  | world, .asyncOutput origin text locked => some (world.pushAsyncOutput origin text locked)
  | world, .commandResult text status =>
    match world.queue with
    | command :: rest =>
      some ({ world with queue := rest }.deliverCommandOutput command.origin text status)
    | [] => none
  | world, .pumpTake i now =>
    match world.pump with
    | .idle => if (world.slots i).used then some (world.pumpTake i now) else none
    | _ => none
  | world, .pumpBegin accepted =>
    match world.pump with
    | .taken pass => some (world.pumpBegin config pass accepted)
    | _ => none
  | world, .pumpPoll accepted =>
    match world.pump with
    | .polling pass out => some (world.pumpPoll config pass out accepted)
    | _ => none

/-- The responder after `configure`, with new editors. -/
def start {E : Type} (editor : E) : Responder E :=
  { slots := fun _ => {}
    typings := fun _ => { editor }
    bound := fun target => target = .espNow }

/-- Where a lone terminal sits. -/
def firstSlot : Fin 3 := 0

/-- An editor that takes every byte as typed and shows nothing. -/
def plainEditor : LineEditor Text where
  reset _ := []
  setPrompt _ typed := (typed, [])
  writeResponse _ typed := (typed, [])
  feed bytes typed := typed ++ bytes
  poll typed :=
    if '\r' ∈ typed then
      ((typed.dropWhile (· ≠ '\r')).drop 1, [], some (typed.takeWhile (· ≠ '\r')))
    else (typed, [], none)
  writeAsyncOutput _ typed := (typed, [])
  refreshLine typed := (typed, [])

end BallyOS.Terminal
