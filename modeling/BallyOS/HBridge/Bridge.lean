import BallyOS.Library.Run
import Mathlib.Logic.Function.Basic

/-! One motor's bridge: the command and the direction it keeps, and the two
channels it writes one after the other. What the driver answers to each write
comes with the call, and a write that fails leaves its channel as it was. -/
namespace BallyOS.HBridge
open Library

def SUPLIMIT : Nat := 100
def kPwmMaxDuty : Nat := 2047

inductive EspErr
  | ok | invalidArg | invalidState | other (code : Int)
deriving Repr, DecidableEq

inductive Movement
  | forward | backward | stopped | braking
deriving Repr, DecidableEq

/-- What the constructor fixes: the two pins, the channel of each and the dead
zone, which it bounds. -/
structure Config where
  l1 : UInt8
  l2 : UInt8
  channelPWM1 : UInt8
  channelPWM2 : UInt8
  deadZone : Nat
  bounded : deadZone ≤ SUPLIMIT

def Config.make (l1 l2 channelPWM1 channelPWM2 deadZone : UInt8) : Config where
  l1 := l1
  l2 := l2
  channelPWM1 := channelPWM1
  channelPWM2 := channelPWM2
  deadZone := if deadZone.toNat > SUPLIMIT then SUPLIMIT else deadZone.toNat
  bounded := by
    split
    · exact Nat.le_refl _
    · omega

/-- `duties` is what was last written to each channel of the controller. -/
structure Bridge where
  initialized : Bool
  pwm : Int
  mov : Movement
  lastMov : Movement
  duties : UInt8 → Nat

/-- The driver's answers to two writes, in the order in which they are made. -/
structure Writes where
  first : EspErr
  second : EspErr
deriving Repr, DecidableEq

def Bridge.constructed (duties : UInt8 → Nat) : Bridge := ⟨false, 0, .stopped, .forward, duties⟩

section
variable (config : Config)

def setDuty (bridge : Bridge) (channel : UInt8) (duty : Nat) (answer : EspErr) : EspErr × Bridge :=
  let duty := if duty > kPwmMaxDuty then kPwmMaxDuty else duty
  (answer, if answer = .ok then
    { bridge with duties := Function.update bridge.duties channel duty } else bridge)

def saturate (newPwm : Int) : Int :=
  if newPwm > 100 then 100 else if newPwm < -100 then -100 else newPwm

def choiceDirection (command : Int) : Movement :=
  if command > 0 then .forward else if command < 0 then .backward else .stopped

/-- The duty of a command, in rounded integer arithmetic. -/
def convertPWM (command : Int) : Nat :=
  let magnitude := command.natAbs
  if magnitude = 0 then 0
  else
    let availableRange := SUPLIMIT - config.deadZone
    let effectivePercent := config.deadZone + (magnitude * availableRange + SUPLIMIT / 2) / SUPLIMIT
    (effectivePercent * kPwmMaxDuty + SUPLIMIT / 2) / SUPLIMIT

/-- Two channels one after the other; the second is not reached if the first fails. -/
def setDuties (bridge : Bridge) (channel : UInt8) (duty : Nat) (other : UInt8) (otherDuty : Nat)
    (writes : Writes) : EspErr × Bridge :=
  let (err, bridge) := setDuty bridge channel duty writes.first
  if err ≠ .ok then (err, bridge) else setDuty bridge other otherDuty writes.second

def enterBrakeState (bridge : Bridge) (writes : Writes) : EspErr × Bridge :=
  if bridge.mov = .backward ∨ (bridge.mov = .stopped ∧ bridge.lastMov = .backward) then
    setDuties bridge config.channelPWM2 kPwmMaxDuty config.channelPWM1 kPwmMaxDuty writes
  else setDuties bridge config.channelPWM1 kPwmMaxDuty config.channelPWM2 kPwmMaxDuty writes

/-- Whether a direction is the other one than the bridge drives in. -/
def reversing (bridge : Bridge) (direction : Movement) : Prop :=
  (bridge.mov = .forward ∧ direction = .backward) ∨ (bridge.mov = .backward ∧ direction = .forward)

instance (bridge : Bridge) (direction : Movement) : Decidable (reversing bridge direction) :=
  inferInstanceAs (Decidable (_ ∨ _))

def drive (bridge : Bridge) (direction : Movement) (driveDuty : Nat)
    (brakeWrites driveWrites : Writes) : EspErr × Bridge :=
  if direction ≠ .forward ∧ direction ≠ .backward then (.invalidArg, bridge)
  else
    let (err, bridge) := if reversing bridge direction then enterBrakeState config bridge brakeWrites
      else (.ok, bridge)
    if err ≠ .ok then (err, bridge)
    else
      let brakeDuty := kPwmMaxDuty - driveDuty
      let (err, bridge) := if direction = .forward then
          setDuties bridge config.channelPWM1 kPwmMaxDuty config.channelPWM2 brakeDuty driveWrites
        else setDuties bridge config.channelPWM2 kPwmMaxDuty config.channelPWM1 brakeDuty driveWrites
      if err = .ok then (err, { bridge with mov := direction, lastMov := direction })
      else (err, bridge)

def brake (bridge : Bridge) (writes : Writes) : EspErr × Bridge :=
  if !bridge.initialized then (.invalidState, bridge)
  else
    let (err, bridge) := enterBrakeState config bridge writes
    if err = .ok then (err, { bridge with pwm := 0, mov := .braking }) else (err, bridge)

/-- A command for the direction and the speed that are kept is not written again. -/
def applyPWM (bridge : Bridge) (newPwm : Int) (brakeWrites driveWrites : Writes) :
    EspErr × Bridge :=
  if !bridge.initialized then (.invalidState, bridge)
  else
    let command := saturate newPwm
    let direction := choiceDirection command
    if direction = .stopped then brake config bridge brakeWrites
    else if command = bridge.pwm ∧ direction = bridge.mov then (.ok, bridge)
    else
      let duty := convertPWM config command
      let (err, bridge) := drive config bridge direction duty brakeWrites driveWrites
      if err = .ok then (err, { bridge with pwm := command }) else (err, bridge)

def coast (bridge : Bridge) (writes : Writes) : EspErr × Bridge :=
  if !bridge.initialized then (.invalidState, bridge)
  else
    let (err, bridge) := if bridge.lastMov = .backward then
        setDuties bridge config.channelPWM1 0 config.channelPWM2 0 writes
      else setDuties bridge config.channelPWM2 0 config.channelPWM1 0 writes
    if err = .ok then (err, { bridge with pwm := 0, mov := .stopped }) else (err, bridge)

/-- What the controller and the pins answer while a channel is set up. -/
structure ChannelAnswers where
  validGpio : Bool
  channelExists : Bool
  reset : EspErr
  configure : EspErr
deriving Repr, DecidableEq

def initChannel (bridge : Bridge) (channel : UInt8) (answers : ChannelAnswers) :
    EspErr × Bridge :=
  if !answers.validGpio then (.invalidArg, bridge)
  else if !answers.channelExists then (.invalidArg, bridge)
  else if answers.reset ≠ .ok then (answers.reset, bridge)
  else (answers.configure, if answers.configure = .ok then
    { bridge with duties := Function.update bridge.duties channel 0 } else bridge)

def init (bridge : Bridge) (timer : EspErr) (first second : ChannelAnswers) (writes : Writes) :
    EspErr × Bridge :=
  if bridge.initialized then (.ok, bridge)
  else if config.l1 = config.l2 ∨ config.channelPWM1 = config.channelPWM2 then (.invalidArg, bridge)
  else if timer ≠ .ok then (timer, bridge)
  else
    let (err, bridge) := initChannel bridge config.channelPWM1 first
    if err ≠ .ok then (err, bridge)
    else
      let (err, bridge) := initChannel bridge config.channelPWM2 second
      if err ≠ .ok then (err, bridge)
      else coast config
        { bridge with initialized := true, pwm := 0, mov := .stopped, lastMov := .forward } writes

inductive Event
  | init (timer : EspErr) (first second : ChannelAnswers) (writes : Writes)
  | applyPWM (newPwm : Int) (brakeWrites driveWrites : Writes)
  | brake (writes : Writes)
  | coast (writes : Writes)
deriving Repr, DecidableEq

def call (bridge : Bridge) : Event → EspErr × Bridge
  | .init timer first second writes => init config bridge timer first second writes
  | .applyPWM newPwm brakeWrites driveWrites =>
    applyPWM config bridge newPwm brakeWrites driveWrites
  | .brake writes => brake config bridge writes
  | .coast writes => coast config bridge writes

def step : Machine Bridge Event := fun bridge event => some (call config bridge event).2

end

end BallyOS.HBridge
