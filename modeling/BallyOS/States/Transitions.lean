import BallyOS.StateMachine.Machine
import BallyOS.Usb.MassStorage

/-! The robot's transition policy on top of the two movers: what a state's action
returns, how `process_transition` decides in steps of its own, and the shell
commands, the storage and the upload server that go on meanwhile. -/
namespace BallyOS.States
open Library StateMachine

structure Transition where
  currentState : StateName
  buttonMask : UInt8
  nextState : StateName

def transitionTable : List Transition :=
  [{ currentState := .wait, buttonMask := 1, nextState := .run },
   { currentState := .wait, buttonMask := 2, nextState := .calibrate },
   { currentState := .wait, buttonMask := 4, nextState := .debug },
   { currentState := .run, buttonMask := 1, nextState := .finish },
   { currentState := .debug, buttonMask := 1, nextState := .finish },
   { currentState := .finish, buttonMask := 2, nextState := .telemetry },
   { currentState := .finish, buttonMask := 1, nextState := .wait },
   { currentState := .error, buttonMask := 7, nextState := .telemetry }]

/-- The last row that matches decides. -/
def buttonTarget (currentState : StateName) (buttons : UInt8) : StateName :=
  transitionTable.foldl (fun nextState row =>
    if row.currentState = currentState ∧ buttons &&& row.buttonMask ≠ 0 then row.nextState
    else nextState) currentState

/-- Where each state's action function goes. -/
def action : StateName → StateName
  | .setup | .calibrate | .telemetry => .wait
  | currentState => currentState

/-- How far `process_transition` has come. -/
inductive Progress
  | entered
  | requested (request : Option StateName)
  /-- The lock was open. -/
  | wanted (nextState : StateName)
  /-- The storage session was asked for. -/
  | unexposed (nextState : StateName)
  /-- The firmware write was asked for. -/
  | unflashed (nextState : StateName)
  /-- `ota.cancel` found no firmware write, and stops the server. -/
  | cancelling (nextState : StateName)
  | settled (nextState : StateName)
deriving Repr, DecidableEq

/-- The command on the shell task. -/
inductive Command
  | none
  | exposeChecked
  | exposeAllowed
  | exposeMounted
  | exposeInstalled
  | otaChecked
deriving Repr, DecidableEq

/-- An upload session; one that is serving takes firmware. -/
inductive Upload
  | idle
  | searching
  | serving
deriving Repr, DecidableEq

structure Robot where
  machine : World
  progress : Progress := .entered
  requestedState : Option StateName := none
  locked : Bool := false
  storage : Usb.Storage
  command : Command := .none
  upload : Upload := .idle
  flashing : Bool := false
  /-- `next` stored another state while the machine was locked, be it ERROR. -/
  movedLocked : Bool := false

inductive Event
  | machine (event : StateMachine.Event)
  /-- `run`'s callback returns. -/
  | act
  | threw (mover : Mover)
  | takeRequest
  | readLock (buttons : UInt8)
  | checkStorage
  | checkFlashing
  | cancelTests
  | stopServer
  /-- `next`'s callback returns. -/
  | decide
  | requestState (target : StateName)
  | setLocked (locked : Bool)
  | exposeCheck
  | exposeAllowed (answers : Usb.Storage.ExposeAnswers)
  | exposeMount (answers : Usb.Storage.ExposeAnswers)
  | exposeInstall (answers : Usb.Storage.ExposeAnswers)
  | exposeActivate
  | reclaim (answer : Usb.MountAnswer) (synced : Bool)
  | processStorage (reclaimPressed synced : Bool) (answer : Usb.MountAnswer)
      (syncedReturn : Bool)
  | storageEvent (event : Usb.StorageEvent)
  | hostConnection (attached : Bool)
  /-- The driver takes the card back from the host on its own. -/
  | ejected
  | otaCheck
  | otaStart
  | otaServe
  | otaCancel
  | uploadStart
  | uploadEnd

namespace Robot

/-- A step of the machine alone. -/
def machineStep (robot : Robot) (event : StateMachine.Event) : Option Robot :=
  (StateMachine.step robot.machine event).map fun machine => { robot with machine }

/-- A store of `next`, which is watched while the machine is locked. -/
def watchedStep (robot : Robot) (event : StateMachine.Event) : Option Robot :=
  (robot.machineStep event).map fun moved =>
    { moved with
      movedLocked := robot.movedLocked || robot.locked &&
        decide (moved.machine.currentState ≠ robot.machine.currentState) }

/-- A mover's event, but for its callback; `next` enters `process_transition`
anew with each load, and both its stores are watched: that of the transition and
that of its own `reportError`. -/
def moverStep (robot : Robot) : StateMachine.Event → Option Robot
  | .callback _ _ => none
  | .load .next => { robot with progress := .entered }.machineStep (.load .next)
  | .store .next => robot.watchedStep (.store .next)
  | .reportError .next => robot.watchedStep (.reportError .next)
  | event => robot.machineStep event

/-- One step of `process_transition`, called for `currentState`. -/
def transitionStep (robot : Robot) (currentState : StateName) : Event → Option Robot
  | .takeRequest =>
    match robot.progress with
    | .entered => some { robot with
        progress := .requested robot.requestedState
        requestedState := none }
    | _ => none
  | .readLock buttons =>
    match robot.progress with
    | .requested request =>
      if robot.locked then some { robot with progress := .settled currentState }
      else some { robot with
        progress := .wanted (request.getD (buttonTarget currentState buttons)) }
    | _ => none
  | .checkStorage =>
    match robot.progress with
    | .wanted nextState =>
      if currentState = .debug ∧ robot.storage.isActive then
        some { robot with progress := .settled .debug }
      else some { robot with progress := .unexposed nextState }
    | _ => none
  | .checkFlashing =>
    match robot.progress with
    | .unexposed nextState =>
      if currentState = .debug ∧ robot.flashing then
        some { robot with progress := .settled .debug }
      else some { robot with progress := .unflashed nextState }
    | _ => none
  | .cancelTests =>
    match robot.progress with
    | .unflashed nextState =>
      if currentState = .debug ∧ nextState ≠ .debug ∧ robot.flashing = false ∧
          robot.upload ≠ .idle then
        some { robot with progress := .cancelling nextState }
      else some { robot with progress := .settled nextState }
    | _ => none
  | .stopServer =>
    -- The server only stops between two requests.
    match robot.progress with
    | .cancelling nextState =>
      if robot.flashing then none
      else some { robot with
        progress := .settled nextState
        upload := .idle }
    | _ => none
  | .decide =>
    match robot.progress with
    | .settled nextState => robot.machineStep (.callback .next (some nextState))
    | _ => none
  | _ => none

/-- "storage -expose": the checks, then the parts of `expose`. -/
def exposeStep (robot : Robot) : Event → Option Robot
  | .exposeCheck =>
    if robot.command = .none ∧ robot.machine.currentState = .debug ∧
        robot.storage.isExposed = false ∧ robot.storage.ready ∧ robot.storage.appHasAccess ∧
        robot.storage.appMounted then
      some { robot with command := .exposeChecked }
    else none
  | .exposeAllowed answers =>
    if robot.command = .exposeChecked then
      let (allowed, storage) := robot.storage.exposeAllowed answers
      some { robot with
        storage
        command := if allowed then .exposeAllowed else .none }
    else none
  | .exposeMount answers =>
    if robot.command = .exposeAllowed then
      let (mounted, storage) := robot.storage.exposeMount answers
      some { robot with
        storage
        command := if mounted then .exposeMounted else .none }
    else none
  | .exposeInstall answers =>
    if robot.command = .exposeMounted then
      let (installed, storage) := robot.storage.exposeInstall answers
      some { robot with
        storage
        command := if installed then .exposeInstalled else .none }
    else none
  | .exposeActivate =>
    if robot.command = .exposeInstalled then
      some { robot with
        storage := robot.storage.exposeActivate
        command := .none }
    else none
  | _ => none

/-- The storage away from `expose`. `processDebug` ticks it inside DEBUG's action. -/
def storageStep (robot : Robot) : Event → Option Robot
  | .reclaim answer synced => some { robot with storage := (robot.storage.reclaim answer synced).2 }
  | .processStorage reclaimPressed synced answer syncedReturn =>
    if robot.machine.calls .run = .loaded .debug then
      some { robot with
        storage := robot.storage.process reclaimPressed synced answer syncedReturn }
    else none
  | .storageEvent event => some { robot with storage := robot.storage.handleStorageEvent event }
  | .hostConnection attached =>
    some { robot with storage := robot.storage.handleHostConnection attached }
  | .ejected => some { robot with storage := { robot.storage with mountPoint := .app } }
  | _ => none

/-- The upload session, and the firmware write inside it. -/
def uploadStep (robot : Robot) : Event → Option Robot
  | .otaCheck =>
    if robot.command = .none ∧ robot.machine.currentState = .debug ∧
        robot.storage.isActive = false ∧ robot.storage.appMounted then
      some { robot with command := .otaChecked }
    else none
  | .otaStart =>
    if robot.command = .otaChecked then
      some { robot with
        command := .none
        upload := if robot.upload = .idle then .searching else robot.upload }
    else none
  | .otaServe =>
    if robot.upload = .searching then some { robot with upload := .serving } else none
  | .otaCancel => if robot.flashing then none else some { robot with upload := .idle }
  | .uploadStart =>
    if robot.upload = .serving ∧ robot.flashing = false then some { robot with flashing := true }
    else none
  | .uploadEnd => if robot.flashing then some { robot with flashing := false } else none
  | _ => none

def step : Machine Robot Event
  | robot, .machine event => robot.moverStep event
  | robot, .act =>
    match robot.machine.calls .run with
    | .loaded currentState => robot.machineStep (.callback .run (some (action currentState)))
    | _ => none
  | robot, .threw mover => robot.machineStep (.callback mover none)
  | robot, .requestState target =>
    if verifyState target then some { robot with requestedState := some target } else none
  | robot, .setLocked locked => some { robot with locked }
  | robot, event =>
    match event with
    | .takeRequest | .readLock _ | .checkStorage | .checkFlashing | .cancelTests | .stopServer
    | .decide =>
      match robot.machine.calls .next with
      | .loaded currentState => robot.transitionStep currentState event
      | _ => none
    | .exposeCheck | .exposeAllowed _ | .exposeMount _ | .exposeInstall _ | .exposeActivate =>
      robot.exposeStep event
    | .reclaim .. | .processStorage .. | .storageEvent _ | .hostConnection _ | .ejected =>
      robot.storageStep event
    | _ => robot.uploadStep event

/-- What the buttons held through reset choose. -/
inductive BootMode
  | normal
  | commConfig
  | ota (started : Bool)
  | storage (answers : Usb.Storage.ExposeAnswers)

/-- The robot when its tasks start; the serial link keeps the USB device up. -/
def boot (mode : BootMode) (ready serial : Bool) (defined : Mover → StateName → Bool) : Robot :=
  let card : Usb.Storage := { ready }
  let (bootState, storage, upload) : StateName × Usb.Storage × Upload :=
    match mode with
    | .normal => (.setup, card, .idle)
    | .commConfig => (.commConfig, card, .idle)
    | .ota true => (.debug, card, .searching)
    | .ota false => (.setup, card, .idle)
    | .storage answers =>
      match card.expose answers with
      | (true, exposed) => (.debug, exposed, .idle)
      | (false, unchanged) => (.setup, unchanged, .idle)
  { machine := start bootState defined
    storage :=
      if serial then { storage with driverInstalled := true, driverPersistent := true }
      else storage
    upload }

end Robot
end BallyOS.States
