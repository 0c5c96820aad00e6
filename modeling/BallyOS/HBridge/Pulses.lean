import BallyOS.HBridge.Agreement

/-! What the motor feels between two channel writes. A call is taken apart into the writes it
asks for, and after each of them the two duties give a direction, or none. -/
namespace BallyOS.HBridge
open Library

inductive Command
  | applyPWM (newPwm : Int)
  | brake
  | coast
deriving Repr, DecidableEq

/-- A write as it is asked of `setDuty`. -/
structure Asked where
  channel : UInt8
  duty : Nat
deriving Repr, DecidableEq

section
variable (config : Config)

def brakeAsked (bridge : Bridge) : List Asked :=
  if bridge.mov = .backward ∨ (bridge.mov = .stopped ∧ bridge.lastMov = .backward) then
    [⟨config.channelPWM2, kPwmMaxDuty⟩, ⟨config.channelPWM1, kPwmMaxDuty⟩]
  else [⟨config.channelPWM1, kPwmMaxDuty⟩, ⟨config.channelPWM2, kPwmMaxDuty⟩]

def driveAsked (bridge : Bridge) (direction : Movement) (driveDuty : Nat) : List Asked :=
  (if reversing bridge direction then brakeAsked config bridge else []) ++
    if direction = .forward then
      [⟨config.channelPWM1, kPwmMaxDuty⟩, ⟨config.channelPWM2, kPwmMaxDuty - driveDuty⟩]
    else [⟨config.channelPWM2, kPwmMaxDuty⟩, ⟨config.channelPWM1, kPwmMaxDuty - driveDuty⟩]

/-- The writes of a call on a bridge that is set up, in their order. -/
def asked (bridge : Bridge) : Command → List Asked
  | .applyPWM newPwm =>
    let command := saturate newPwm
    let direction := choiceDirection command
    if direction = .stopped then brakeAsked config bridge
    else if command = bridge.pwm ∧ direction = bridge.mov then []
    else driveAsked config bridge direction (convertPWM config command)
  | .brake => brakeAsked config bridge
  | .coast =>
    if bridge.lastMov = .backward then [⟨config.channelPWM1, 0⟩, ⟨config.channelPWM2, 0⟩]
    else [⟨config.channelPWM2, 0⟩, ⟨config.channelPWM1, 0⟩]

end

def written (duties : UInt8 → Nat) (writes : List Asked) : UInt8 → Nat :=
  writes.foldl (fun duties write =>
    Function.update duties write.channel (min write.duty kPwmMaxDuty)) duties

def Bridge.after (bridge : Bridge) (writes : List Asked) : Bridge :=
  { bridge with duties := written bridge.duties writes }

/-- The duties after each of the writes. -/
def instants (duties : UInt8 → Nat) : List Asked → List (UInt8 → Nat)
  | [] => []
  | write :: rest => written duties [write] :: instants (written duties [write]) rest

/-- How many of two writes go through. -/
def Writes.granted (writes : Writes) : Nat :=
  if writes.first = .ok then if writes.second = .ok then 2 else 1 else 0

def Command.event (command : Command) (brakeWrites driveWrites : Writes) : Event :=
  match command with
  | .applyPWM newPwm => .applyPWM newPwm brakeWrites driveWrites
  | .brake => .brake brakeWrites
  | .coast => .coast brakeWrites

/-- How many writes of a call go through. -/
def Command.granted (command : Command) (bridge : Bridge) (brakeWrites driveWrites : Writes) :
    Nat :=
  match command with
  | .applyPWM newPwm =>
    let direction := choiceDirection (saturate newPwm)
    if direction = .stopped then brakeWrites.granted
    else if reversing bridge direction then
      if brakeWrites.granted = 2 then 2 + driveWrites.granted else brakeWrites.granted
    else driveWrites.granted
  | _ => brakeWrites.granted

/-- The call with every write answered with success. -/
def Command.granting (command : Command) : Event := command.event ⟨.ok, .ok⟩ ⟨.ok, .ok⟩

/-- The direction a call commands, if it commands one. -/
def Command.direction : Command → Movement
  | .applyPWM newPwm => choiceDirection (saturate newPwm)
  | _ => .stopped

/-- The direction of the last driven motion after one more call. -/
def Command.lastDriven (last : Movement) (command : Command) : Movement :=
  if command.direction = .stopped then last else command.direction

/-- The direction of the last driven motion; forward where there was none. -/
def lastDriven (commands : List Command) : Movement :=
  commands.foldl Command.lastDriven .forward

/-- The way in which two duties turn the motor. -/
def heading (config : Config) (duties : UInt8 → Nat) : Movement :=
  if duties config.channelPWM2 < duties config.channelPWM1 then .forward
  else if duties config.channelPWM1 < duties config.channelPWM2 then .backward
  else .stopped

/-- The conversion in the machine's 32 bits, from the dead zone as the constructor keeps it. -/
def convertPWM32 (deadZone : UInt8) (command : Int) : UInt32 :=
  let magnitude := UInt32.ofNat command.natAbs
  if magnitude = 0 then 0
  else
    let availableRange := 100 - deadZone.toUInt32
    let effectivePercent := deadZone.toUInt32 + (magnitude * availableRange + 50) / 100
    (effectivePercent * 2047 + 50) / 100

/-- What a call on the bridge does between its writes. -/
structure Unpulsed (config : Config) (bridge : Bridge) (last : Movement) (command : Command) :
    Prop where
  instants : ∀ duties ∈ instants bridge.duties (asked config bridge command),
    heading config duties = .stopped ∨ heading config duties = last ∨
      heading config duties = command.direction
  reversal : heading config bridge.duties ≠ .stopped → command.direction ≠ .stopped →
    command.direction ≠ heading config bridge.duties →
    ∃ duties ∈ HBridge.instants bridge.duties (asked config bridge command),
      duties config.channelPWM1 = kPwmMaxDuty ∧ duties config.channelPWM2 = kPwmMaxDuty
  capped : ∀ write ∈ asked config bridge command, write.duty ≤ kPwmMaxDuty

/-- The writes asked for are the call's: it makes them in their order, up to the first that
fails. -/
def Asks (config : Config) (bridge : Bridge) (command : Command) : Prop :=
  ∀ brakeWrites driveWrites,
    (call config bridge (command.event brakeWrites driveWrites)).2.duties =
      written bridge.duties ((asked config bridge command).take
        (command.granted bridge brakeWrites driveWrites))

/-- The duty arithmetic: nothing wraps, more is never less, and all is the maximum. -/
structure Exact (config : Config) : Prop where
  convert : ∀ newPwm, (convertPWM32 (UInt8.ofNat config.deadZone) (saturate newPwm)).toNat =
    convertPWM config (saturate newPwm)
  brake : ∀ newPwm, (2047 - convertPWM32 (UInt8.ofNat config.deadZone) (saturate newPwm)).toNat +
    convertPWM config (saturate newPwm) = kPwmMaxDuty
  monotone : ∀ command other : Int, command.natAbs ≤ other.natAbs →
    convertPWM config command ≤ convertPWM config other
  full : ∀ command : Int, command.natAbs = 100 → convertPWM config command = kPwmMaxDuty

/-! ### A call and its writes -/

private theorem written_append (duties : UInt8 → Nat) (first second : List Asked) :
    written duties (first ++ second) = written (written duties first) second :=
  List.foldl_append

private theorem setDuty_eq (bridge : Bridge) (channel : UInt8) (duty : Nat) (answer : EspErr) :
    setDuty bridge channel duty answer =
      (answer, bridge.after (if answer = .ok then [⟨channel, duty⟩] else [])) := by
  have capped : (if duty > kPwmMaxDuty then kPwmMaxDuty else duty) = min duty kPwmMaxDuty := by
    split <;> omega
  simp only [setDuty, capped]
  split <;> rfl

private theorem setDuties_eq (bridge : Bridge) (channel : UInt8) (duty : Nat) (other : UInt8)
    (otherDuty : Nat) (writes : Writes) :
    ∃ err, (err = .ok ↔ writes.granted = 2) ∧
      setDuties bridge channel duty other otherDuty writes =
        (err, bridge.after ([⟨channel, duty⟩, ⟨other, otherDuty⟩].take writes.granted)) := by
  simp only [setDuties, setDuty_eq, Writes.granted]
  by_cases first : writes.first = .ok
  · by_cases second : writes.second = .ok
    · exact ⟨.ok, by simp [first, second], by simp [first, second, Bridge.after, written]⟩
    · exact ⟨writes.second, by simp [first, second],
        by simp [first, second, Bridge.after, written]⟩
  · exact ⟨writes.first, by simp [first], by simp [first, Bridge.after, written]⟩

private theorem enterBrakeState_asked (config : Config) (bridge : Bridge) (writes : Writes) :
    ∃ err, (err = .ok ↔ writes.granted = 2) ∧ enterBrakeState config bridge writes =
      (err, bridge.after ((brakeAsked config bridge).take writes.granted)) := by
  unfold enterBrakeState brakeAsked
  split
  · exact setDuties_eq ..
  · exact setDuties_eq ..

private theorem length_brakeAsked (config : Config) (bridge : Bridge) :
    (brakeAsked config bridge).length = 2 := by
  unfold brakeAsked
  split <;> rfl

private theorem brake_asked (config : Config) {bridge : Bridge}
    (started : bridge.initialized = true)
    (writes : Writes) :
    (brake config bridge writes).2.duties =
      written bridge.duties ((brakeAsked config bridge).take writes.granted) := by
  obtain ⟨err, -, entered⟩ := enterBrakeState_asked config bridge writes
  simp only [brake, started, entered, Bool.not_true, Bool.false_eq_true, if_false]
  split <;> rfl

private theorem coast_asked (config : Config) {bridge : Bridge}
    (started : bridge.initialized = true)
    (writes : Writes) :
    (coast config bridge writes).2.duties =
      written bridge.duties ((asked config bridge .coast).take writes.granted) := by
  simp only [coast, started, asked, Bool.not_true, Bool.false_eq_true, if_false]
  by_cases back : bridge.lastMov = .backward
  · obtain ⟨err, -, wrote⟩ :=
      setDuties_eq bridge config.channelPWM1 0 config.channelPWM2 0 writes
    simp only [if_pos back, wrote]
    split <;> rfl
  · obtain ⟨err, -, wrote⟩ :=
      setDuties_eq bridge config.channelPWM2 0 config.channelPWM1 0 writes
    simp only [if_neg back, wrote]
    split <;> rfl

/-- The last two writes of a drive. -/
def driveEnd (config : Config) (direction : Movement) (driveDuty : Nat) : List Asked :=
  [⟨config.own direction, kPwmMaxDuty⟩, ⟨config.opposite direction, kPwmMaxDuty - driveDuty⟩]

private theorem driveAsked_eq (config : Config) (bridge : Bridge) {direction : Movement}
    (moving : direction = .forward ∨ direction = .backward) (driveDuty : Nat) :
    driveAsked config bridge direction driveDuty =
      (if reversing bridge direction then brakeAsked config bridge else []) ++
        driveEnd config direction driveDuty := by
  obtain rfl | rfl := moving <;> rfl

private theorem drive_asked (config : Config) (bridge : Bridge) {direction : Movement}
    (moving : direction = .forward ∨ direction = .backward) (driveDuty : Nat)
    (brakeWrites driveWrites : Writes) :
    (drive config bridge direction driveDuty brakeWrites driveWrites).2.duties =
      written bridge.duties ((driveAsked config bridge direction driveDuty).take
        (if reversing bridge direction then
          if brakeWrites.granted = 2 then 2 + driveWrites.granted else brakeWrites.granted
        else driveWrites.granted)) := by
  rw [drive_eq config bridge moving, driveAsked_eq config bridge moving]
  have ends (bridge : Bridge) : ∃ err, (err = .ok ↔ driveWrites.granted = 2) ∧
      setDuties bridge (config.own direction) kPwmMaxDuty (config.opposite direction)
          (kPwmMaxDuty - driveDuty) driveWrites =
        (err, bridge.after ((driveEnd config direction driveDuty).take driveWrites.granted)) :=
    setDuties_eq ..
  by_cases turning : reversing bridge direction
  · simp only [if_pos turning]
    obtain ⟨err, braked, entered⟩ := enterBrakeState_asked config bridge brakeWrites
    have two := length_brakeAsked config bridge
    rw [entered]
    by_cases through : brakeWrites.granted = 2
    · obtain ⟨last, -, wrote⟩ := ends (bridge.after ((brakeAsked config bridge).take 2))
      have all (more : Nat) : (brakeAsked config bridge).take (2 + more) =
          brakeAsked config bridge := List.take_of_length_le (by omega)
      rw [through, if_neg (not_not_intro (braked.mpr through)), wrote, if_pos rfl,
        List.take_append, two, all, all 0, written_append, Nat.add_sub_cancel_left]
      split <;> rfl
    · rw [if_pos (mt braked.mp through), if_neg through]
      have fewer : brakeWrites.granted ≤ 2 := by
        unfold Writes.granted
        split
        · split <;> omega
        · omega
      rw [List.take_append_of_le_length (two ▸ fewer)]
      rfl
  · obtain ⟨last, -, wrote⟩ := ends bridge
    simp only [if_neg turning, wrote, List.nil_append]
    rw [if_neg (not_not_intro rfl)]
    split <;> rfl

private theorem call_asked (config : Config) {bridge : Bridge} (started : bridge.initialized = true)
    (command : Command) : Asks config bridge command := by
  intro brakeWrites driveWrites
  cases command with
  | brake => exact brake_asked config started brakeWrites
  | coast => exact coast_asked config started brakeWrites
  | applyPWM newPwm =>
    simp only [Command.event, call, Command.granted, asked]
    obtain ⟨zero, stops⟩ | ⟨moves, same, facing, stays⟩ | ⟨moves, other, drives⟩ :=
      @applyPWM_cases config bridge started newPwm brakeWrites driveWrites
    · rw [stops, if_pos (choiceDirection_stopped.mpr zero),
        if_pos (choiceDirection_stopped.mpr zero)]
      exact brake_asked config started brakeWrites
    · have unchanged : saturate newPwm = bridge.pwm ∧
          choiceDirection (saturate newPwm) = bridge.mov := ⟨same, facing⟩
      rw [stays, if_neg (mt choiceDirection_stopped.mp moves),
        if_neg (mt choiceDirection_stopped.mp moves), if_pos unchanged, List.take_nil]
      rfl
    · rw [drives, if_neg (mt choiceDirection_stopped.mp moves), if_neg other,
        if_neg (mt choiceDirection_stopped.mp moves), ← drive_asked config bridge
          (moving_of_ne moves)]
      dsimp only
      split <;> rfl

/-! ### Calls whose writes all go through -/

private theorem setDuties_granting (bridge : Bridge) (channel : UInt8) (duty : Nat) (other : UInt8)
    (otherDuty : Nat) :
    setDuties bridge channel duty other otherDuty ⟨.ok, .ok⟩ =
      (.ok, bridge.after [⟨channel, duty⟩, ⟨other, otherDuty⟩]) := by
  obtain ⟨err, went, wrote⟩ := setDuties_eq bridge channel duty other otherDuty ⟨.ok, .ok⟩
  rw [went.mpr rfl] at wrote
  exact wrote

private theorem enterBrakeState_granting (config : Config) (bridge : Bridge) :
    enterBrakeState config bridge ⟨.ok, .ok⟩ =
      (.ok, bridge.after (brakeAsked config bridge)) := by
  unfold enterBrakeState brakeAsked
  split
  · exact setDuties_granting ..
  · exact setDuties_granting ..

private theorem brake_granting (config : Config) {bridge : Bridge}
    (started : bridge.initialized = true) :
    brake config bridge ⟨.ok, .ok⟩ =
      (.ok, { bridge.after (brakeAsked config bridge) with pwm := 0, mov := .braking }) := by
  simp only [brake, started, Bool.not_true, Bool.false_eq_true, if_false,
    enterBrakeState_granting, if_true]

private theorem coast_granting (config : Config) {bridge : Bridge}
    (started : bridge.initialized = true) :
    coast config bridge ⟨.ok, .ok⟩ =
      (.ok, { bridge.after (asked config bridge .coast) with pwm := 0, mov := .stopped }) := by
  simp only [coast, started, Bool.not_true, Bool.false_eq_true, if_false, asked]
  by_cases back : bridge.lastMov = .backward
  · simp only [if_pos back, setDuties_granting, if_true]
  · simp only [if_neg back, setDuties_granting, if_true]

private theorem drive_granting (config : Config) (bridge : Bridge) {direction : Movement}
    (moving : direction = .forward ∨ direction = .backward) (driveDuty : Nat) :
    drive config bridge direction driveDuty ⟨.ok, .ok⟩ ⟨.ok, .ok⟩ =
      (.ok, { bridge.after (driveAsked config bridge direction driveDuty) with
        mov := direction, lastMov := direction }) := by
  rw [drive_eq config bridge moving, driveAsked_eq config bridge moving]
  by_cases turning : reversing bridge direction
  · simp only [if_pos turning, enterBrakeState_granting, setDuties_granting, Bridge.after,
      written_append]
    rfl
  · simp only [if_neg turning, setDuties_granting, List.nil_append]
    rfl

/-! ### A bridge whose writes all went through -/

/-- How the bridge stands after calls of which the last driven one went this way. -/
structure Posed (config : Config) (last : Movement) (bridge : Bridge) : Prop where
  started : bridge.initialized = true
  apart : config.channelPWM1 ≠ config.channelPWM2
  kept : bridge.lastMov = last
  moving : last = .forward ∨ last = .backward
  capped : ∀ movement, bridge.duties (config.own movement) ≤ kPwmMaxDuty
  released : bridge.mov = .stopped → ∀ movement, bridge.duties (config.own movement) = 0
  braked : bridge.mov = .braking → ∀ movement, bridge.duties (config.own movement) = kPwmMaxDuty
  driven : bridge.Driving → bridge.mov = last ∧ bridge.duties (config.own last) = kPwmMaxDuty

private theorem written_two {config : Config} (apart : config.channelPWM1 ≠ config.channelPWM2)
    (duties : UInt8 → Nat) (movement : Movement) (duty otherDuty : Nat) :
    written duties [⟨config.own movement, duty⟩, ⟨config.opposite movement, otherDuty⟩]
        (config.own movement) = min duty kPwmMaxDuty ∧
      written duties [⟨config.own movement, duty⟩, ⟨config.opposite movement, otherDuty⟩]
        (config.opposite movement) = min otherDuty kPwmMaxDuty := by
  have differ := own_ne_opposite apart movement
  simp [written, differ]

private theorem instants_append (duties : UInt8 → Nat) (first second : List Asked) :
    instants duties (first ++ second) =
      instants duties first ++ instants (written duties first) second := by
  induction first generalizing duties with
  | nil => rfl
  | cons write rest ih =>
    rw [List.cons_append, instants, ih]
    rfl

private theorem heading_of_le {config : Config} {duties : UInt8 → Nat} {movement : Movement}
    (moving : movement = .forward ∨ movement = .backward)
    (below : duties (config.opposite movement) ≤ duties (config.own movement)) :
    heading config duties = .stopped ∨ heading config duties = movement := by
  unfold heading
  obtain rfl | rfl := moving
  · have none : ¬ duties config.channelPWM1 < duties config.channelPWM2 := Nat.not_lt.mpr below
    rw [if_neg none]
    split
    · exact .inr rfl
    · exact .inl rfl
  · have none : ¬ duties config.channelPWM2 < duties config.channelPWM1 := Nat.not_lt.mpr below
    rw [if_neg none]
    split
    · exact .inr rfl
    · exact .inl rfl

private theorem heading_of_eq {config : Config} {duties : UInt8 → Nat}
    (same : duties config.channelPWM1 = duties config.channelPWM2) :
    heading config duties = .stopped := by
  unfold heading
  rw [same]
  simp

private theorem opposite_capped {config : Config} {duties : UInt8 → Nat}
    (capped : ∀ movement, duties (config.own movement) ≤ kPwmMaxDuty) (movement : Movement) :
    duties (config.opposite movement) ≤ kPwmMaxDuty := by
  cases movement with
  | backward => exact capped .forward
  | _ => exact capped .backward

/-- Holding up a direction's channel and letting its other one down turns that way only. -/
theorem heading_driveEnd {config : Config} (apart : config.channelPWM1 ≠ config.channelPWM2)
    {duties : UInt8 → Nat} (capped : ∀ movement, duties (config.own movement) ≤ kPwmMaxDuty)
    {direction : Movement} (moving : direction = .forward ∨ direction = .backward)
    {driveDuty : Nat} {between : UInt8 → Nat}
    (member : between ∈ instants duties (driveEnd config direction driveDuty)) :
    heading config between = .stopped ∨ heading config between = direction := by
  have differ := own_ne_opposite apart direction
  have other := opposite_capped capped direction
  apply heading_of_le moving
  simp only [driveEnd, instants, List.mem_cons, List.not_mem_nil, or_false] at member
  obtain rfl | rfl := member
  · simpa [written, differ.symm] using other
  · simp [written, differ]

private theorem mov_cases (bridge : Bridge) :
    bridge.mov = .stopped ∨ bridge.mov = .braking ∨ bridge.Driving := by
  cases same : bridge.mov with
  | forward => exact .inr (.inr (.inl same))
  | backward => exact .inr (.inr (.inr same))
  | stopped => exact .inl rfl
  | braking => exact .inr (.inl rfl)

/-- Braking begins with the channel that the last driven direction holds up. -/
theorem brakeAsked_eq {config : Config} {last : Movement} {bridge : Bridge}
    (posed : Posed config last bridge) :
    ∃ movement, (movement = .forward ∨ movement = .backward) ∧
      (bridge.mov ≠ .braking → movement = last) ∧
      brakeAsked config bridge = driveEnd config movement 0 := by
  unfold brakeAsked
  split
  · rename_i back
    refine ⟨.backward, .inr rfl, fun _ => ?_, rfl⟩
    obtain back | ⟨-, back⟩ := back
    · exact back.symm.trans (posed.driven (.inr back)).1
    · exact back.symm.trans posed.kept
  · rename_i other
    refine ⟨.forward, .inl rfl, fun unbraked => ?_, rfl⟩
    obtain stopped | braking | driving := mov_cases bridge
    · obtain ahead | back := posed.moving
      · exact ahead.symm
      · exact absurd (.inr ⟨stopped, posed.kept.trans back⟩) other
    · exact absurd braking unbraked
    · obtain ahead | back := driving
      · exact ahead.symm.trans (posed.driven (.inl ahead)).1
      · exact absurd (.inl back) other

private theorem both_up_driveEnd {config : Config} (apart : config.channelPWM1 ≠ config.channelPWM2)
    (duties : UInt8 → Nat) (direction movement : Movement) :
    written duties (driveEnd config direction 0) (config.own movement) = kPwmMaxDuty := by
  obtain ⟨own, opposite⟩ := written_two apart duties direction kPwmMaxDuty kPwmMaxDuty
  rw [Nat.min_self] at own opposite
  cases direction <;> cases movement <;> first | exact own | exact opposite

private theorem heading_brake {config : Config} {last : Movement} {bridge : Bridge}
    (posed : Posed config last bridge) {between : UInt8 → Nat}
    (member : between ∈ instants bridge.duties (brakeAsked config bridge)) :
    heading config between = .stopped ∨ heading config between = last := by
  obtain ⟨movement, moving, same, asks⟩ := brakeAsked_eq posed
  rw [asks] at member
  by_cases braking : bridge.mov = .braking
  · -- both channels are up already, and stay so
    have up := posed.braked braking
    have other : bridge.duties (config.opposite movement) = kPwmMaxDuty := by
      cases movement with
      | backward => exact up .forward
      | _ => exact up .backward
    have still {channel : UInt8} (held : bridge.duties channel = kPwmMaxDuty) :
        written bridge.duties [⟨channel, kPwmMaxDuty⟩] = bridge.duties := by
      simp [written, ← held]
    have same : between = bridge.duties := by
      simpa [driveEnd, instants, still (up movement), still other] using member
    rw [same]
    exact .inl (heading_of_eq ((up .forward).trans (up .backward).symm))
  · rw [← same braking]
    exact heading_driveEnd posed.apart posed.capped moving member

private theorem heading_coast {config : Config} {last : Movement} {bridge : Bridge}
    (posed : Posed config last bridge) {between : UInt8 → Nat}
    (member : between ∈ instants bridge.duties (asked config bridge .coast)) :
    heading config between = .stopped ∨ heading config between = last := by
  have differ := own_ne_opposite posed.apart last
  have order : asked config bridge .coast =
      [⟨config.opposite last, 0⟩, ⟨config.own last, 0⟩] := by
    rw [asked, posed.kept]
    obtain rfl | rfl := posed.moving <;> rfl
  rw [order] at member
  simp only [instants, List.mem_cons, List.not_mem_nil, or_false] at member
  apply heading_of_le posed.moving
  obtain rfl | rfl := member
  · simp [written]
  · simp [written, differ.symm]

/-- A bridge that turns one way drives that way. -/
theorem driving_of_heading {config : Config} {last : Movement} {bridge : Bridge}
    (posed : Posed config last bridge) (turns : heading config bridge.duties ≠ .stopped) :
    bridge.Driving ∧ heading config bridge.duties = bridge.mov := by
  obtain stopped | braking | driving := mov_cases bridge
  · have down := posed.released stopped
    exact absurd (heading_of_eq ((down .forward).trans (down .backward).symm)) turns
  · have up := posed.braked braking
    exact absurd (heading_of_eq ((up .forward).trans (up .backward).symm)) turns
  · obtain ⟨same, held⟩ := posed.driven driving
    have below : bridge.duties (config.opposite last) ≤ bridge.duties (config.own last) :=
      held ▸ opposite_capped posed.capped last
    refine ⟨driving, ?_⟩
    rw [same]
    exact (heading_of_le posed.moving below).resolve_left turns

private theorem reversing_of_heading {config : Config} {last : Movement} {bridge : Bridge}
    (posed : Posed config last bridge) (turns : heading config bridge.duties ≠ .stopped)
    {direction : Movement} (moving : direction = .forward ∨ direction = .backward)
    (differs : direction ≠ heading config bridge.duties) : reversing bridge direction := by
  obtain ⟨driving, same⟩ := driving_of_heading posed turns
  rw [same] at differs
  exact not_not.mp fun straight =>
    differs (direction_of_straight moving driving straight).symm

/-- The two writes that end the braking leave both channels up. -/
theorem both_up_mem {config : Config} {last : Movement} {bridge : Bridge}
    (posed : Posed config last bridge) :
    ∃ duties ∈ instants bridge.duties (brakeAsked config bridge),
      duties config.channelPWM1 = kPwmMaxDuty ∧ duties config.channelPWM2 = kPwmMaxDuty := by
  obtain ⟨movement, -, -, asks⟩ := brakeAsked_eq posed
  rw [asks]
  exact ⟨written bridge.duties (driveEnd config movement 0), by simp [driveEnd, instants, written],
    both_up_driveEnd posed.apart _ movement .forward,
    both_up_driveEnd posed.apart _ movement .backward⟩

private theorem capped_driveEnd {config : Config} {direction : Movement} {driveDuty : Nat}
    {write : Asked}
    (member : write ∈ driveEnd config direction driveDuty) : write.duty ≤ kPwmMaxDuty := by
  simp only [driveEnd, List.mem_cons, List.not_mem_nil, or_false] at member
  obtain rfl | rfl := member
  · exact Nat.le_refl _
  · exact Nat.sub_le ..

private theorem capped_brakeAsked {config : Config} {last : Movement} {bridge : Bridge}
    (posed : Posed config last bridge) {write : Asked}
    (member : write ∈ brakeAsked config bridge) : write.duty ≤ kPwmMaxDuty := by
  obtain ⟨movement, -, -, asks⟩ := brakeAsked_eq posed
  exact capped_driveEnd (asks ▸ member)

/-- What `applyPWM` asks for: a braking, nothing, or a drive. -/
theorem asked_applyPWM (config : Config) (bridge : Bridge) (newPwm : Int) :
    (choiceDirection (saturate newPwm) = .stopped ∧
      asked config bridge (.applyPWM newPwm) = brakeAsked config bridge) ∨
    (saturate newPwm ≠ 0 ∧ choiceDirection (saturate newPwm) = bridge.mov ∧
      asked config bridge (.applyPWM newPwm) = []) ∨
    (saturate newPwm ≠ 0 ∧ asked config bridge (.applyPWM newPwm) =
      driveAsked config bridge (choiceDirection (saturate newPwm))
        (convertPWM config (saturate newPwm))) := by
  simp only [asked]
  by_cases stays : choiceDirection (saturate newPwm) = .stopped
  · exact .inl ⟨stays, if_pos stays⟩
  have moves := mt choiceDirection_stopped.mpr stays
  rw [if_neg stays]
  by_cases unchanged : saturate newPwm = bridge.pwm ∧
      choiceDirection (saturate newPwm) = bridge.mov
  · exact .inr (.inl ⟨moves, unchanged.2, if_pos unchanged⟩)
  · exact .inr (.inr ⟨moves, if_neg unchanged⟩)

private theorem heading_drive {config : Config} {last : Movement} {bridge : Bridge}
    (posed : Posed config last bridge) {direction : Movement}
    (moving : direction = .forward ∨ direction = .backward) {driveDuty : Nat}
    {between : UInt8 → Nat}
    (member : between ∈ instants bridge.duties (driveAsked config bridge direction driveDuty)) :
    heading config between = .stopped ∨ heading config between = last ∨
      heading config between = direction := by
  rw [driveAsked_eq config bridge moving] at member
  by_cases turning : reversing bridge direction
  · rw [if_pos turning, instants_append, List.mem_append] at member
    obtain braking | driving := member
    · exact (heading_brake posed braking).imp_right .inl
    · obtain ⟨movement, -, -, asks⟩ := brakeAsked_eq posed
      have capped (each : Movement) : written bridge.duties (brakeAsked config bridge)
          (config.own each) ≤ kPwmMaxDuty := by
        rw [asks]
        exact Nat.le_of_eq (both_up_driveEnd posed.apart bridge.duties movement each)
      exact (heading_driveEnd posed.apart capped moving driving).imp_right .inr
  · rw [if_neg turning, List.nil_append] at member
    exact (heading_driveEnd posed.apart posed.capped moving member).imp_right .inr

private theorem unpulsed_of_posed {config : Config} {last : Movement} {bridge : Bridge}
    (posed : Posed config last bridge) (command : Command) :
    Unpulsed config bridge last command := by
  cases command with
  | brake =>
    exact ⟨fun _ member => (heading_brake posed member).imp_right .inl,
      fun _ commanded => absurd rfl commanded, fun _ member => capped_brakeAsked posed member⟩
  | coast =>
    refine ⟨fun _ member => (heading_coast posed member).imp_right .inl,
      fun _ commanded => absurd rfl commanded, fun write member => ?_⟩
    simp only [asked] at member
    split at member <;> simp only [List.mem_cons, List.not_mem_nil, or_false] at member <;>
      obtain rfl | rfl := member <;> exact Nat.zero_le _
  | applyPWM newPwm =>
    obtain ⟨stays, asks⟩ | ⟨moves, facing, asks⟩ | ⟨moves, asks⟩ :=
      asked_applyPWM config bridge newPwm
    · refine ⟨?_, fun _ commanded => absurd stays commanded, ?_⟩ <;> rw [asks]
      · exact fun _ member => (heading_brake posed member).imp_right .inl
      · exact fun _ member => capped_brakeAsked posed member
    · refine ⟨?_, fun turns _ differs => ?_, ?_⟩
      · rw [asks]
        exact fun _ member => absurd member List.not_mem_nil
      · exact absurd (facing.trans (driving_of_heading posed turns).2.symm) differs
      · rw [asks]
        exact fun _ member => absurd member List.not_mem_nil
    · have moving := moving_of_ne moves
      refine ⟨?_, fun turns _ differs => ?_, ?_⟩ <;> rw [asks]
      · exact fun _ member => heading_drive posed moving member
      · have turning := reversing_of_heading posed turns moving differs
        obtain ⟨duties, member, up⟩ := both_up_mem posed
        rw [driveAsked_eq config bridge moving, if_pos turning, instants_append]
        exact ⟨duties, List.mem_append_left _ member, up⟩
      · intro write member
        rw [driveAsked_eq config bridge moving, List.mem_append] at member
        obtain braking | driving := member
        · split at braking
          · exact capped_brakeAsked posed braking
          · cases braking
        · exact capped_driveEnd driving

/-! ### Runs -/

private theorem posed_brake {config : Config} {last : Movement} {bridge : Bridge}
    (posed : Posed config last bridge) :
    Posed config last (brake config bridge ⟨.ok, .ok⟩).2 := by
  rw [brake_granting config posed.started]
  obtain ⟨movement, -, -, asks⟩ := brakeAsked_eq posed
  have up (each : Movement) : written bridge.duties (brakeAsked config bridge)
      (config.own each) = kPwmMaxDuty :=
    asks ▸ both_up_driveEnd posed.apart bridge.duties movement each
  exact ⟨posed.started, posed.apart, posed.kept, posed.moving, fun each => Nat.le_of_eq (up each),
    nofun, fun _ => up, fun driving => absurd driving (not_driving_braking rfl)⟩

private theorem released_coast {config : Config} (apart : config.channelPWM1 ≠ config.channelPWM2)
    (bridge : Bridge) (movement : Movement) :
    written bridge.duties (asked config bridge .coast) (config.own movement) = 0 := by
  have differ := apart.symm
  simp only [asked]
  split <;> cases movement <;> simp [written, Config.own, apart, differ]

private theorem posed_coasted (config : Config) {last : Movement} {bridge : Bridge}
    (started : bridge.initialized = true) (apart : config.channelPWM1 ≠ config.channelPWM2)
    (kept : bridge.lastMov = last) (moving : last = .forward ∨ last = .backward) :
    Posed config last (coast config bridge ⟨.ok, .ok⟩).2 := by
  rw [coast_granting config started]
  have down := released_coast apart bridge
  exact ⟨started, apart, kept, moving, fun each => Nat.le_trans (Nat.le_of_eq (down each))
    (Nat.zero_le _),
    fun _ => down, nofun, fun driving => absurd driving (not_driving_stopped rfl)⟩

private theorem posed_driven {config : Config} {last : Movement} {bridge : Bridge}
    (posed : Posed config last bridge) {direction : Movement}
    (moving : direction = .forward ∨ direction = .backward) (driveDuty : Nat) :
    Posed config direction (drive config bridge direction driveDuty ⟨.ok, .ok⟩ ⟨.ok, .ok⟩).2 := by
  rw [drive_granting config bridge moving]
  have before : ∃ duties, written bridge.duties (driveAsked config bridge direction driveDuty) =
      written duties (driveEnd config direction driveDuty) := by
    rw [driveAsked_eq config bridge moving, written_append]
    exact ⟨_, rfl⟩
  obtain ⟨duties, wrote⟩ := before
  obtain ⟨own, opposite⟩ := written_two posed.apart duties direction kPwmMaxDuty
    (kPwmMaxDuty - driveDuty)
  rw [Nat.min_self] at own
  change written duties (driveEnd config direction driveDuty) _ = _ at own
  have capped (each : Movement) : written duties (driveEnd config direction driveDuty)
      (config.own each) ≤ kPwmMaxDuty := by
    have other : written duties (driveEnd config direction driveDuty)
        (config.opposite direction) ≤ kPwmMaxDuty := opposite ▸ Nat.min_le_right ..
    have same := Nat.le_of_eq own
    obtain rfl | rfl := moving <;> cases each <;> first | exact same | exact other
  have driving : (⟨bridge.initialized, bridge.pwm, direction, direction, duties⟩ :
      Bridge).Driving := moving
  refine ⟨posed.started, posed.apart, rfl, moving, ?_, fun stopped => ?_, fun braking => ?_,
    fun _ => ⟨rfl, ?_⟩⟩
  · simpa only [Bridge.after, wrote] using capped
  · exact absurd driving (not_driving_stopped stopped)
  · exact absurd driving (not_driving_braking braking)
  · simpa only [Bridge.after, wrote] using own

private theorem lastDriven_still {command : Command} (still : command.direction = .stopped)
    (last : Movement) : command.lastDriven last = last := if_pos still

private theorem lastDriven_moving {command : Command} (moves : command.direction ≠ .stopped)
    (last : Movement) : command.lastDriven last = command.direction := if_neg moves

private theorem posed_call {config : Config} {last : Movement} {bridge : Bridge}
    (posed : Posed config last bridge) (command : Command) :
    Posed config (command.lastDriven last) (call config bridge command.granting).2 := by
  cases command with
  | brake => exact posed_brake posed
  | coast => exact posed_coasted config posed.started posed.apart posed.kept posed.moving
  | applyPWM newPwm =>
    simp only [Command.granting, Command.event, call]
    obtain ⟨zero, stops⟩ | ⟨moves, -, facing, stays⟩ | ⟨moves, -, drives⟩ :=
      @applyPWM_cases config bridge posed.started newPwm ⟨.ok, .ok⟩ ⟨.ok, .ok⟩
    · have still : (Command.applyPWM newPwm).direction = .stopped :=
        choiceDirection_stopped.mpr zero
      rw [stops, lastDriven_still still]
      exact posed_brake posed
    · have moves : (Command.applyPWM newPwm).direction ≠ .stopped :=
        mt choiceDirection_stopped.mp moves
      have driving : bridge.Driving := by
        rw [Bridge.Driving, ← facing]
        exact moving_of_ne (mt choiceDirection_stopped.mpr moves)
      have same : (Command.applyPWM newPwm).direction = last :=
        facing.trans (posed.driven driving).1
      rw [stays, lastDriven_moving moves, same]
      exact posed
    · have moving := moving_of_ne moves
      have moves : (Command.applyPWM newPwm).direction ≠ .stopped :=
        mt choiceDirection_stopped.mp moves
      have drove := posed_driven posed moving (convertPWM config (saturate newPwm))
      rw [drive_granting config bridge moving] at drove
      rw [drives, lastDriven_moving moves, drive_granting config bridge moving]
      exact ⟨drove.started, drove.apart, drove.kept, drove.moving, drove.capped, drove.released,
        drove.braked, drove.driven⟩

private theorem posed_run {config : Config} {bridge reached : Bridge}
    (commands : List Command) {last : Movement} (posed : Posed config last bridge)
    (ran : run (step config) bridge (commands.map Command.granting) = some reached) :
    Posed config (commands.foldl Command.lastDriven last) reached := by
  induction commands generalizing bridge last with
  | nil =>
    cases ran
    exact posed
  | cons command rest ih =>
    obtain ⟨next, stepped, ran⟩ := run_cons.mp ran
    cases stepped
    exact ih (posed_call posed command) ran

private theorem granted_of_coast_ok {config : Config} {bridge after : Bridge} {writes : Writes}
    (started : bridge.initialized = true) (coasted : coast config bridge writes = (.ok, after)) :
    writes = ⟨.ok, .ok⟩ := by
  obtain ⟨first, second⟩ := writes
  obtain ⟨err, went, wrote⟩ : ∃ err, (err = .ok ↔ Writes.granted ⟨first, second⟩ = 2) ∧
      (if bridge.lastMov = .backward then
        setDuties bridge config.channelPWM1 0 config.channelPWM2 0 ⟨first, second⟩
      else setDuties bridge config.channelPWM2 0 config.channelPWM1 0 ⟨first, second⟩) =
        (err, bridge.after ((asked config bridge .coast).take
          (Writes.granted ⟨first, second⟩))) := by
    simp only [asked]
    split
    · exact setDuties_eq ..
    · exact setDuties_eq ..
  simp only [coast, started, Bool.not_true, Bool.false_eq_true, if_false, wrote] at coasted
  have passed : err = .ok := by
    by_cases ok : err = .ok
    · exact ok
    · rw [if_neg ok] at coasted
      exact congrArg Prod.fst coasted
  have both := went.mp passed
  simp only [Writes.granted] at both
  split at both
  · split at both
    · rename_i one two
      rw [one, two]
    · cases both
  · cases both

private theorem posed_init {config : Config} {duties : UInt8 → Nat} {timer : EspErr}
    {first second : ChannelAnswers} {writes : Writes} {bridge : Bridge}
    (initialized : init config (.constructed duties) timer first second writes = (.ok, bridge)) :
    Posed config .forward bridge := by
  have off : ¬ (Bridge.constructed duties).initialized = true := Bool.false_ne_true
  simp only [init, if_neg off] at initialized
  by_cases same : config.l1 = config.l2 ∨ config.channelPWM1 = config.channelPWM2
  · rw [if_pos same] at initialized
    cases initialized
  have apart : config.channelPWM1 ≠ config.channelPWM2 := fun channels => same (.inr channels)
  rw [if_neg same] at initialized
  by_cases ticks : timer = .ok
  case neg =>
    rw [if_pos ticks] at initialized
    exact absurd (congrArg Prod.fst initialized) ticks
  rw [if_neg (not_not_intro ticks)] at initialized
  generalize initChannel (.constructed duties) config.channelPWM1 first = one at initialized
  by_cases set : one.1 = .ok
  case neg =>
    rw [if_pos set] at initialized
    exact absurd (congrArg Prod.fst initialized) set
  rw [if_neg (not_not_intro set)] at initialized
  generalize initChannel one.2 config.channelPWM2 second = two at initialized
  by_cases reset : two.1 = .ok
  case neg =>
    rw [if_pos reset] at initialized
    exact absurd (congrArg Prod.fst initialized) reset
  rw [if_neg (not_not_intro reset)] at initialized
  have coasted := initialized
  rw [granted_of_coast_ok rfl initialized] at coasted
  have posed := congrArg (fun result => Posed config .forward result.2) coasted
  exact posed.mp (posed_coasted config rfl apart rfl (.inl rfl))

/-! ### Duties -/

private theorem convertPWM_mono (config : Config) {command other : Int}
    (less : command.natAbs ≤ other.natAbs) :
    convertPWM config command ≤ convertPWM config other := by
  simp only [convertPWM]
  by_cases zero : command.natAbs = 0
  · rw [if_pos zero]
    exact Nat.zero_le _
  · have nonzero : other.natAbs ≠ 0 := by omega
    rw [if_neg zero, if_neg nonzero]
    have products := Nat.mul_le_mul_right (SUPLIMIT - config.deadZone) less
    have percents := Nat.div_le_div_right (c := SUPLIMIT)
      (Nat.add_le_add_right products (SUPLIMIT / 2))
    have duties := Nat.mul_le_mul_right kPwmMaxDuty
      (Nat.add_le_add_left percents config.deadZone)
    exact Nat.div_le_div_right (Nat.add_le_add_right duties _)

private theorem convertPWM_full (config : Config) {command : Int} (full : command.natAbs = 100) :
    convertPWM config command = kPwmMaxDuty := by
  have bounded := config.bounded
  simp only [convertPWM, full, SUPLIMIT, kPwmMaxDuty] at *
  rw [if_neg (by decide)]
  omega

private theorem convertPWM32_toNat (config : Config) (newPwm : Int) :
    (convertPWM32 (UInt8.ofNat config.deadZone) (saturate newPwm)).toNat =
      convertPWM config (saturate newPwm) := by
  have bounded := config.bounded
  have limit := natAbs_saturate newPwm
  simp only [convertPWM32, convertPWM]
  generalize (saturate newPwm).natAbs = magnitude at limit ⊢
  generalize config.deadZone = deadZone at bounded ⊢
  simp only [SUPLIMIT, kPwmMaxDuty] at *
  have given : (UInt32.ofNat magnitude).toNat = magnitude :=
    UInt32.toNat_ofNat_of_lt' (by simp only [UInt32.size]; omega)
  have zone : (UInt8.ofNat deadZone).toUInt32.toNat = deadZone := by
    rw [UInt8.toNat_toUInt32]
    exact UInt8.toNat_ofNat_of_lt' (by simp only [UInt8.size]; omega)
  have range : (100 - (UInt8.ofNat deadZone).toUInt32).toNat = 100 - deadZone := by
    rw [UInt32.toNat_sub_of_le _ _ (by rw [UInt32.le_iff_toNat_le, zone]; exact bounded), zone]
    rfl
  have product : magnitude * (100 - deadZone) ≤ 100 * 100 :=
    Nat.mul_le_mul limit (Nat.sub_le ..)
  have zero : UInt32.ofNat magnitude = 0 ↔ magnitude = 0 := by
    rw [← UInt32.toNat_inj, given]
    rfl
  by_cases none : magnitude = 0
  · rw [if_pos (zero.mpr none), if_pos none]
    rfl
  rw [if_neg (mt zero.mp none), if_neg none]
  simp only [UInt32.toNat_div, UInt32.toNat_add, UInt32.toNat_mul, given, zone, range]
  generalize magnitude * (100 - deadZone) = scaled at product ⊢
  simp
  omega

private theorem exact_duties (config : Config) : Exact config where
  convert := convertPWM32_toNat config
  brake newPwm := by
    have fits := convertPWM_le config newPwm
    have same := convertPWM32_toNat config newPwm
    rw [UInt32.toNat_sub_of_le _ _ (by rw [UInt32.le_iff_toNat_le, same]; exact fits), same]
    exact Nat.sub_add_cancel fits
  monotone _ _ := convertPWM_mono config
  full _ := convertPWM_full config

/-- Between any two writes of any calls after a successful set-up the motor is turned no way,
the way it was driven last, or the way commanded; a reversal goes through both channels up;
and no duty is out of range, for any dead zone and any command. -/
theorem no_opposite_pulse (config : Config) :
    (∀ (duties : UInt8 → Nat) (timer : EspErr) (first second : ChannelAnswers) (writes : Writes)
      (bridge : Bridge),
      init config (.constructed duties) timer first second writes = (.ok, bridge) →
      ∀ (commands : List Command) (reached : Bridge),
        run (step config) bridge (commands.map Command.granting) = some reached →
        ∀ command, Asks config reached command ∧
          Unpulsed config reached (lastDriven commands) command) ∧
      Exact config := by
  refine ⟨fun _ _ _ _ _ _ initialized commands reached ran command => ?_, exact_duties config⟩
  have posed := posed_run commands (posed_init initialized) ran
  exact ⟨call_asked config posed.started command, unpulsed_of_posed posed command⟩

private def backwardThenForward : List Command := [.applyPWM (-40), .brake, .coast]

theorem no_opposite_pulse_after_coast : ∃ reached,
    Asks (.make 1 2 0 1 20) reached (.applyPWM 70) ∧
      Unpulsed (.make 1 2 0 1 20) reached .backward (.applyPWM 70) := by
  have ran : ∃ reached, run (step (.make 1 2 0 1 20))
      (init (.make 1 2 0 1 20) (.constructed fun _ => 9) .ok ⟨true, true, .ok, .ok⟩
        ⟨true, true, .ok, .ok⟩ ⟨.ok, .ok⟩).2 (backwardThenForward.map Command.granting) =
      some reached := ⟨_, rfl⟩
  obtain ⟨reached, ran⟩ := ran
  exact ⟨reached, (no_opposite_pulse (.make 1 2 0 1 20)).1 (fun _ => 9) .ok ⟨true, true, .ok, .ok⟩
    ⟨true, true, .ok, .ok⟩ ⟨.ok, .ok⟩ _ rfl backwardThenForward reached ran (.applyPWM 70)⟩

end BallyOS.HBridge
