import BallyOS.States.Transitions

/-! COMM_CONFIG's menu: the pass that its action makes over the buttons, and the
robot whose `run` makes it. -/
namespace BallyOS.CommConfig
open Library StateMachine States

def kDebounceMs : UInt32 := 200
def kInactivityTimeoutMs : UInt32 := 30000
def kRestartDelayMs : Nat := 500

/-- Which buttons read low, that is pressed. -/
structure Levels where
  btn0 : Bool := false
  btn1 : Bool := false
  btn2 : Bool := false
deriving Repr, DecidableEq

/-- What the menu keeps of a button. -/
structure Button where
  wasLow : Bool := false
  lastEdgeMs : UInt32 := 0
deriving Repr, DecidableEq

def debouncedPress (button : Button) (low : Bool) (nowMs : UInt32) : Bool × Button :=
  let accepted := low && !button.wasLow && decide (nowMs - button.lastEdgeMs ≥ kDebounceMs)
  (accepted, {
    wasLow := low
    lastEdgeMs := if accepted then nowMs else button.lastEdgeMs })

structure Menu where
  active : Bool := false
  restartScheduled : Bool := false
  selected : UInt8 := 0
  lastActivityMs : UInt32 := 0
  btn0 : Button := {}
  btn1 : Button := {}
  btn2 : Button := {}
deriving Repr, DecidableEq

inductive Led
  | blue | green | yellow | red
deriving Repr, DecidableEq

def ledForOption : List Led := [.blue, .green, .yellow, .red]

/-- What one pass reads: the time since boot, the stored mode, the buttons as the
edge trackers are primed and again as presses are looked for, and how the mode is saved. -/
structure Readings where
  uptimeMs : Nat
  commMode : UInt8
  primed : Levels := {}
  levels : Levels := {}
  setOk : Bool := true
  saved : Bool := true
deriving Repr, DecidableEq

def Readings.nowMs (readings : Readings) : UInt32 := UInt32.ofNat readings.uptimeMs

inductive Cause
  | confirmed (commMode : UInt8) (setOk saved : Bool)
  | inactivity
deriving Repr, DecidableEq

/-- What one pass leaves: the state it returns, the menu, the LED it refreshed, the
menu it set up if it did, whether a press was accepted, and the restart it scheduled. -/
structure Outcome where
  state : StateName
  menu : Menu
  led : Option Led
  opened : Option Menu
  accepted : Bool := false
  restart : Option Cause := none
deriving Repr, DecidableEq

def Menu.init (menu : Menu) (readings : Readings) : Menu :=
  { menu with
    active := true
    restartScheduled := false
    selected := if readings.commMode ≤ 3 then readings.commMode else 0
    lastActivityMs := readings.nowMs
    btn0.wasLow := readings.primed.btn0
    btn1.wasLow := readings.primed.btn1
    btn2.wasLow := readings.primed.btn2 }

/-- The buttons that move the selection, and whether one did. -/
def Menu.browse (menu : Menu) (readings : Readings) : Bool × Menu :=
  let (next, btn1) := debouncedPress menu.btn1 readings.levels.btn1 readings.nowMs
  let menu := { menu with
    btn1 := btn1
    selected := if next then (menu.selected + 1) % 4 else menu.selected }
  let (prev, btn2) := debouncedPress menu.btn2 readings.levels.btn2 readings.nowMs
  (next || prev, { menu with
    btn2 := btn2
    selected := if prev then (menu.selected + 3) % 4 else menu.selected })

def commConfigTick (menu : Menu) (readings : Readings) : Outcome :=
  let opened := if menu.active then none else some (menu.init readings)
  let menu := opened.getD menu
  let led := ledForOption[menu.selected.toNat]?
  if menu.restartScheduled then { state := .commConfig, menu, led, opened }
  else
    let (activity, menu) := menu.browse readings
    let (confirm, btn0) := debouncedPress menu.btn0 readings.levels.btn0 readings.nowMs
    let menu := { menu with btn0 := btn0 }
    if confirm then
      { state := .commConfig, led, opened
        menu := { menu with restartScheduled := true }
        accepted := true
        restart := some (.confirmed menu.selected readings.setOk
          (readings.setOk && readings.saved)) }
    else if activity then
      { state := .commConfig, led, opened
        menu := { menu with lastActivityMs := readings.nowMs }
        accepted := true }
    else if readings.nowMs - menu.lastActivityMs ≥ kInactivityTimeoutMs then
      { state := .commConfig, led, opened
        menu := { menu with restartScheduled := true }
        restart := some .inactivity }
    else { state := .commConfig, menu, led, opened }

structure Restart where
  cause : Cause
  scheduledMs : Nat
deriving Repr, DecidableEq

/-- What nobody keeps: how often COMM_CONFIG was entered, its passes, the menus
set up in them, when presses were accepted, and the restarts scheduled. -/
structure History where
  visits : Nat := 0
  ticks : List Readings := []
  openings : List Menu := []
  presses : List Nat := []
  restarts : List Restart := []
deriving Repr, DecidableEq

structure World where
  robot : Robot
  menu : Menu := {}
  clock : Nat := 0
  rebooted : Bool := false
  history : History := {}

inductive Event
  | robot (event : States.Event)
  /-- COMM_CONFIG's action returns from its pass. -/
  | tick (readings : Readings)
  /-- A restart timer expires. -/
  | restart (uptimeMs : Nat)

namespace World

def current (world : World) : StateName := world.robot.machine.currentState

/-- The robot moved, and may have come to COMM_CONFIG. -/
def moved (world : World) (robot : Robot) : World :=
  { world with
    robot
    history.visits :=
      if robot.machine.currentState = .commConfig ∧ world.current ≠ .commConfig then
        world.history.visits + 1
      else world.history.visits }

def ticked (world : World) (readings : Readings) (outcome : Outcome) : World :=
  { world with
    menu := outcome.menu
    clock := readings.uptimeMs
    history := { world.history with
      ticks := world.history.ticks ++ [readings]
      openings := world.history.openings ++ outcome.opened.toList
      presses := world.history.presses ++ if outcome.accepted then [readings.uptimeMs] else []
      restarts := world.history.restarts ++
        (outcome.restart.map (Restart.mk · readings.uptimeMs)).toList } }

end World

def step : Machine World Event := fun world event =>
  if world.rebooted then none
  else match event with
  | .robot .act =>
    match world.robot.machine.calls .run with
    | .loaded .commConfig => none
    | _ => (Robot.step world.robot .act).map world.moved
  | .robot event => (Robot.step world.robot event).map world.moved
  | .tick readings =>
    match world.robot.machine.calls .run with
    | .loaded .commConfig =>
      if world.clock ≤ readings.uptimeMs then
        let outcome := commConfigTick world.menu readings
        (world.robot.machineStep (.callback .run (some outcome.state))).map fun robot =>
          (world.moved robot).ticked readings outcome
      else none
    | _ => none
  | .restart uptimeMs =>
    if world.clock ≤ uptimeMs ∧
        world.history.restarts.any fun restart =>
          restart.scheduledMs + kRestartDelayMs ≤ uptimeMs then
      some { world with
        rebooted := true
        clock := uptimeMs }
    else none

/-- The robot when its tasks start, in the mode that the buttons chose. -/
def boot (mode : Robot.BootMode) (ready serial : Bool) (defined : Mover → StateName → Bool) :
    World :=
  let robot := Robot.boot mode ready serial defined
  { robot, history.visits := if robot.machine.currentState = .commConfig then 1 else 0 }

end BallyOS.CommConfig
