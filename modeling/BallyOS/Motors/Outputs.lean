import BallyOS.Flags.DeadMan
import BallyOS.HBridge.Bridge

/-! The motors between the shell and the routine. A shell command is a few
accesses to the PWM flags, the arming and the coast deadline; `setOutputs`
reads them one after the other and writes the two bridges. Any number of tasks
give commands, and every access is a step of its own. -/
namespace BallyOS.Motors
open Library Flags

/-- One access of a command to what it shares with the routine. -/
inductive Action
  | storeArmed (armed : Bool)
  | requireArmed
  | clearCoast
  | setCoast (durationMs : UInt32)
  | setValue (index : UInt8) (value : Int8) (time : UInt32)
  | getValue (index : UInt8)
deriving Repr, DecidableEq

/-- What the shell and the states ask of the motors, and who else reads the flags: the
status reads them as `limits` does. -/
inductive Order
  | arm
  | disarm
  | drive (forward turn : Int8) (timeMs : UInt32)
  | stop
  | brake (timeMs : UInt32)
  | coast (timeMs : UInt32)
  | setPwm (motorIdx : UInt8) (pwmValue : Int8) (time : UInt32)
  | setPwmPair (leftPwm rightPwm : Int8) (time : UInt32)
  | stopMotors
  | limits
  | sampleEKF
deriving Repr, DecidableEq

/-- The differential mix of `drive`, saturated rather than scaled. -/
def mix (forward turn : Int8) : Int8 × Int8 :=
  (Int8.ofInt (saturate (forward.toInt - turn.toInt)),
    Int8.ofInt (saturate (forward.toInt + turn.toInt)))

def setBoth (left right : Int8) (time : UInt32) : List Action :=
  [.setValue motorLeft left time, .setValue motorRight right time]

/-- The accesses of a command, in order; after a `requireArmed` that fails there are none. -/
def Order.actions (delayFlags : UInt32) : Order → List Action
  | arm => [.storeArmed true]
  | disarm => .storeArmed false :: setBoth 0 0 delayFlags
  | drive forward turn timeMs =>
    .requireArmed :: setBoth (mix forward turn).1 (mix forward turn).2 timeMs
  | stop => .clearCoast :: setBoth 0 0 delayFlags
  | brake timeMs => .clearCoast :: setBoth 0 0 timeMs
  | coast timeMs => if timeMs = 0 then [] else [.setCoast timeMs]
  | setPwm motorIdx pwmValue time =>
    if motorIdx > motorRight then [] else [.requireArmed, .setValue motorIdx pwmValue time]
  | setPwmPair leftPwm rightPwm time => .requireArmed :: setBoth leftPwm rightPwm time
  | stopMotors => setBoth 0 0 delayFlags
  | limits => [.getValue motorLeft, .getValue motorRight]
  | sampleEKF => [.getValue motorRight, .getValue motorLeft]

/-- How far `setOutputs` has come, with what it holds in its variables. -/
inductive Pass
  | readLeft
  | readRight (leftPwm : Int)
  | loadArmed (leftPwm rightPwm : Int)
  | clearDisarmed
  | loadCoast (leftPwm rightPwm : Int)
  | readClock (coastUntil : UInt32)
  | clearExpired
  | outputLeft (coasting : Bool) (leftPwm rightPwm : Int)
  | outputRight (coasting : Bool) (rightPwm : Int)
deriving Repr, DecidableEq

/-- `passes` counts the passes that came to their end. -/
structure System (Task : Type) where
  motors : FlagsPwm
  armed : Bool
  coastUntil : UInt32
  left : HBridge.Bridge
  right : HBridge.Bridge
  pass : Pass
  calls : Task → List Action
  passes : Nat

/-- What the driver answers to the writes of one bridge call. -/
structure Answers where
  brakeWrites : HBridge.Writes
  driveWrites : HBridge.Writes
deriving Repr, DecidableEq

/-- A command comes with the `delay_flags` that the settings hold then. -/
inductive Event (Task : Type)
  | order (task : Task) (order : Order) (delayFlags : UInt32)
  | act (task : Task) (nowMs : Nat)
  | check (nowMs : Nat)
  | pass (nowMs : Nat) (answers : Answers)
deriving DecidableEq

/-- The robot when its bridges are set up: armed, and nothing asked. -/
def System.boot (Task : Type) (left right : HBridge.Bridge) : System Task where
  motors := {}
  armed := true
  coastUntil := 0
  left := left
  right := right
  pass := .readLeft
  calls := fun _ => []
  passes := 0

/-- The deadline of a coast; zero is kept for "not coasting". -/
def deadline (nowMs : Nat) (durationMs : UInt32) : UInt32 :=
  let deadline := millis nowMs + durationMs
  if deadline = 0 then 1 else deadline

section

variable {Task : Type}

/-- What an action does to the shared state; what is left of the command is dealt with apart. -/
def System.perform (system : System Task) (nowMs : Nat) : Action → System Task
  | .storeArmed armed => { system with armed }
  | .requireArmed => system
  | .clearCoast => { system with coastUntil := 0 }
  | .setCoast durationMs => { system with coastUntil := deadline nowMs durationMs }
  | .setValue index value time =>
    { system with motors := system.motors.setValue nowMs index value time }
  | .getValue index => { system with motors := (system.motors.getValue index).2 }

/-- A bridge call of `setOutputs`. -/
def output (config : HBridge.Config) (bridge : HBridge.Bridge) (coasting : Bool) (pwm : Int)
    (answers : Answers) : HBridge.Bridge :=
  (HBridge.call config bridge (if coasting then .coast answers.brakeWrites
    else .applyPWM pwm answers.brakeWrites answers.driveWrites)).2

variable (leftConfig rightConfig : HBridge.Config)

/-- One access of `setOutputs`. -/
def advance (system : System Task) (nowMs : Nat) (answers : Answers) : System Task :=
  match system.pass with
  | .readLeft =>
    let (leftPwm, motors) := system.motors.getValue motorLeft
    { system with motors, pass := .readRight leftPwm }
  | .readRight leftPwm =>
    let (rightPwm, motors) := system.motors.getValue motorRight
    { system with motors, pass := .loadArmed leftPwm rightPwm }
  | .loadArmed leftPwm rightPwm =>
    { system with pass := if system.armed then .loadCoast leftPwm rightPwm else .clearDisarmed }
  | .clearDisarmed => { system with coastUntil := 0, pass := .loadCoast 0 0 }
  | .loadCoast leftPwm rightPwm =>
    { system with
      pass := if system.coastUntil ≠ 0 ∧ leftPwm = 0 ∧ rightPwm = 0 then
          .readClock system.coastUntil
        else .outputLeft false leftPwm rightPwm }
  | .readClock coastUntil =>
    { system with
      pass := if (millis nowMs - coastUntil).toInt32 < 0 then .outputLeft true 0 0
        else .clearExpired }
  | .clearExpired => { system with coastUntil := 0, pass := .outputLeft false 0 0 }
  | .outputLeft coasting leftPwm rightPwm =>
    { system with
      left := output leftConfig system.left coasting leftPwm answers
      pass := .outputRight coasting rightPwm }
  | .outputRight coasting rightPwm =>
    { system with
      right := output rightConfig system.right coasting rightPwm answers
      pass := .readLeft
      passes := system.passes + 1 }

variable [DecidableEq Task]

def step : Machine (System Task) (Event Task) := fun system event =>
  match event with
  | .order task order delayFlags =>
    if system.calls task = [] then
      some { system with calls := Function.update system.calls task (order.actions delayFlags) }
    else none
  | .act task nowMs =>
    match system.calls task with
    | [] => none
    | action :: rest =>
      let rest := if action = .requireArmed ∧ system.armed = false then [] else rest
      some { system.perform nowMs action with calls := Function.update system.calls task rest }
  | .check nowMs => some { system with motors := system.motors.check nowMs }
  | .pass nowMs answers => some (advance leftConfig rightConfig system nowMs answers)

end

/-! ### A pass on its own -/

section

variable {Task : Type} [DecidableEq Task] {leftConfig rightConfig : HBridge.Config}

/-- What a pass is about to put out. -/
def Pass.output : Pass → Option Output
  | .outputLeft coasting leftPwm rightPwm =>
    some (if coasting then .coast else .pwm leftPwm rightPwm)
  | _ => none

/-- A pass that nothing interrupts puts out what `setOutputs` does when it is
read as one step, and leaves the arming and the deadline as that does. -/
theorem pass_alone (system : System Task) (begins : system.pass = .readLeft) (nowMs : Nat)
    (answers : Answers) :
    ∃ count finish, run (step leftConfig rightConfig) system
        (List.replicate count (.pass nowMs answers)) = some finish ∧
      finish.pass.output =
        some (setOutputs ⟨system.motors, system.armed, system.coastUntil⟩ nowMs).1 ∧
      (setOutputs ⟨system.motors, system.armed, system.coastUntil⟩ nowMs).2 =
        ⟨finish.motors, finish.armed, finish.coastUntil⟩ := by
  obtain ⟨motors, armed, coastUntil, left, right, pass, calls, passes⟩ := system
  cases begins
  cases armed with
  | false => exact ⟨5, _, rfl, rfl, rfl⟩
  | true =>
    rcases reading : motors.getValue motorLeft with ⟨leftPwm, once⟩
    rcases rereading : once.getValue motorRight with ⟨rightPwm, twice⟩
    by_cases latched : coastUntil ≠ 0 ∧ leftPwm = 0 ∧ rightPwm = 0
    · by_cases early : (millis nowMs - coastUntil).toInt32 < 0
      · refine ⟨5, ⟨twice, true, coastUntil, left, right, .outputLeft true 0 0, calls, passes⟩, ?_⟩
        simp [-UInt32.toInt32_sub, run, step, advance, setOutputs, Pass.output, reading, rereading,
          latched, early]
      · refine ⟨6, ⟨twice, true, 0, left, right, .outputLeft false 0 0, calls, passes⟩, ?_⟩
        simp [-UInt32.toInt32_sub, run, step, advance, setOutputs, Pass.output, reading, rereading,
          latched, early]
    · refine ⟨4, ⟨twice, true, coastUntil, left, right, .outputLeft false leftPwm rightPwm, calls,
        passes⟩, ?_⟩
      simp [-UInt32.toInt32_sub, run, step, advance, setOutputs, Pass.output, reading, rereading,
        latched]

end

end BallyOS.Motors
