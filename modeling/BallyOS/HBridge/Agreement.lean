import BallyOS.HBridge.Bridge
import Mathlib.Tactic.SplitIfs

/-! When the command that a bridge keeps is what its channels carry. -/
namespace BallyOS.HBridge
open Library

/-- The duties a command asks of the two channels. -/
def Carries (config : Config) (command : Int) (bridge : Bridge) : Prop :=
  match choiceDirection command with
  | .forward => bridge.duties config.channelPWM1 = kPwmMaxDuty ∧
      bridge.duties config.channelPWM2 = kPwmMaxDuty - convertPWM config command
  | .backward => bridge.duties config.channelPWM2 = kPwmMaxDuty ∧
      bridge.duties config.channelPWM1 = kPwmMaxDuty - convertPWM config command
  | _ => bridge.duties config.channelPWM1 = kPwmMaxDuty ∧
      bridge.duties config.channelPWM2 = kPwmMaxDuty

/-- Whatever `applyPWM` is called with next, its success is what the channels carry. -/
def Honest (config : Config) (bridge : Bridge) : Prop :=
  ∀ newPwm brakeWrites driveWrites after,
    applyPWM config bridge newPwm brakeWrites driveWrites = (.ok, after) →
    Carries config (saturate newPwm) after

def Bridge.Driving (bridge : Bridge) : Prop := bridge.mov = .forward ∨ bridge.mov = .backward

/-- The call ends half way while the bridge drives: a coast that has already let
go of the braking channel, or a reversal past its braking. -/
def Tears (config : Config) (bridge : Bridge) : Event → Prop
  | .coast writes => writes.first = .ok ∧ writes.second ≠ .ok ∧
      ((bridge.mov = .forward ∧ bridge.duties config.channelPWM2 ≠ 0) ∨
        (bridge.mov = .backward ∧ bridge.duties config.channelPWM1 ≠ 0))
  | .applyPWM newPwm brakeWrites driveWrites =>
    reversing bridge (choiceDirection (saturate newPwm)) ∧
      brakeWrites.first = .ok ∧ brakeWrites.second = .ok ∧
      ¬ (driveWrites.first = .ok ∧ driveWrites.second = .ok)
  | _ => False

/-! ### Commands -/

private theorem saturate_saturate (newPwm : Int) : saturate (saturate newPwm) = saturate newPwm :=
    by
  unfold saturate
  split_ifs <;> omega

theorem natAbs_saturate (newPwm : Int) : (saturate newPwm).natAbs ≤ SUPLIMIT := by
  unfold saturate SUPLIMIT
  split_ifs <;> omega

/-- No duty asks for more than the controller can carry. -/
theorem convertPWM_le (config : Config) (newPwm : Int) :
    convertPWM config (saturate newPwm) ≤ kPwmMaxDuty := by
  have bounded := config.bounded
  have limit := natAbs_saturate newPwm
  have most : (saturate newPwm).natAbs * (SUPLIMIT - config.deadZone) ≤
      SUPLIMIT * (SUPLIMIT - config.deadZone) := Nat.mul_le_mul_right _ limit
  simp only [convertPWM]
  split
  · exact Nat.zero_le _
  generalize (saturate newPwm).natAbs * (SUPLIMIT - config.deadZone) = product at most ⊢
  simp only [SUPLIMIT, kPwmMaxDuty] at *
  omega

/-- Any command but zero drives a little: no dead zone and no rounding makes it a brake. -/
theorem convertPWM_pos (config : Config) {command : Int} (moves : command ≠ 0) :
    0 < convertPWM config command := by
  have bounded := config.bounded
  have magnitude : command.natAbs ≠ 0 := Int.natAbs_ne_zero.mpr moves
  have least : 1 * (SUPLIMIT - config.deadZone) ≤
      command.natAbs * (SUPLIMIT - config.deadZone) :=
    Nat.mul_le_mul_right _ (Nat.one_le_iff_ne_zero.mpr magnitude)
  simp only [convertPWM, if_neg magnitude]
  generalize command.natAbs * (SUPLIMIT - config.deadZone) = product at least ⊢
  simp only [SUPLIMIT, kPwmMaxDuty] at *
  omega

private theorem choiceDirection_ne_braking (command : Int) : choiceDirection command ≠ .braking :=
    by
  unfold choiceDirection
  split_ifs <;> decide

theorem choiceDirection_stopped {command : Int} :
    choiceDirection command = .stopped ↔ command = 0 := by
  unfold choiceDirection
  split_ifs with positive negative
  · exact iff_of_false nofun (by omega)
  · exact iff_of_false nofun (by omega)
  · exact iff_of_true rfl (by omega)

/-! ### Pairs of writes -/

/-- The channel that a direction holds up, and the one it brakes with. -/
def Config.own (config : Config) : Movement → UInt8
  | .backward => config.channelPWM2
  | _ => config.channelPWM1

def Config.opposite (config : Config) : Movement → UInt8
  | .backward => config.channelPWM1
  | _ => config.channelPWM2

theorem own_ne_opposite {config : Config} (apart : config.channelPWM1 ≠ config.channelPWM2)
    (movement : Movement) : config.own movement ≠ config.opposite movement := by
  cases movement with
  | backward => exact apart.symm
  | _ => exact apart

private theorem carries_moving {config : Config} {bridge : Bridge} {command : Int}
    (moves : command ≠ 0) : Carries config command bridge ↔
      bridge.duties (config.own (choiceDirection command)) = kPwmMaxDuty ∧
        bridge.duties (config.opposite (choiceDirection command)) =
          kPwmMaxDuty - convertPWM config command := by
  have stays := mt choiceDirection_stopped.mp moves
  have brakes := choiceDirection_ne_braking command
  unfold Carries
  cases direction : choiceDirection command with
  | forward | backward => exact Iff.rfl
  | stopped => exact absurd direction stays
  | braking => exact absurd direction brakes

def Bridge.write (bridge : Bridge) (channel : UInt8) (duty : Nat) : Bridge :=
  { bridge with duties := Function.update bridge.duties channel duty }

private theorem setDuty_of_le {duty : Nat} (fits : duty ≤ kPwmMaxDuty) (bridge : Bridge)
    (channel : UInt8)
    (answer : EspErr) : setDuty bridge channel duty answer =
      (answer, if answer = .ok then bridge.write channel duty else bridge) := by
  simp only [setDuty, if_neg (Nat.not_lt.mpr fits)]
  rfl

/-- Nothing, the first, or both are written, by how far the driver went along. -/
theorem setDuties_cases {duty otherDuty : Nat} (fits : duty ≤ kPwmMaxDuty)
    (otherFits : otherDuty ≤ kPwmMaxDuty) (bridge : Bridge) (channel other : UInt8)
    (writes : Writes) :
    (writes.first ≠ .ok ∧
      setDuties bridge channel duty other otherDuty writes = (writes.first, bridge)) ∨
    (writes.first = .ok ∧ writes.second ≠ .ok ∧
      setDuties bridge channel duty other otherDuty writes =
        (writes.second, bridge.write channel duty)) ∨
    (writes.first = .ok ∧ writes.second = .ok ∧
      setDuties bridge channel duty other otherDuty writes =
        (.ok, (bridge.write channel duty).write other otherDuty)) := by
  simp only [setDuties, setDuty_of_le fits, setDuty_of_le otherFits]
  by_cases first : writes.first = .ok
  · by_cases second : writes.second = .ok
    · exact .inr (.inr ⟨first, second, by simp [first, second]⟩)
    · exact .inr (.inl ⟨first, second, by simp [first, second]⟩)
  · exact .inl ⟨first, by simp [first]⟩

private theorem enterBrakeState_eq (config : Config) (bridge : Bridge) (writes : Writes) :
    ∃ movement, (bridge.Driving → movement = bridge.mov) ∧
      enterBrakeState config bridge writes =
        setDuties bridge (config.own movement) kPwmMaxDuty (config.opposite movement) kPwmMaxDuty
          writes := by
  unfold enterBrakeState
  split
  · rename_i back
    refine ⟨.backward, fun driving => ?_, rfl⟩
    obtain back | ⟨stopped, -⟩ := back
    · exact back.symm
    · obtain ahead | back := driving
      · exact absurd (ahead.symm.trans stopped) nofun
      · exact back.symm
  · rename_i other
    refine ⟨.forward, fun driving => ?_, rfl⟩
    obtain ahead | back := driving
    · exact ahead.symm
    · exact absurd (.inl back) other

/-! ### Calls on a bridge that agrees -/

/-- What holds of any bridge: it drives only once it is set up, with its last
direction and a command of that direction. -/
structure Kept (config : Config) (bridge : Bridge) : Prop where
  started : bridge.Driving → bridge.initialized = true
  apart : bridge.initialized = true → config.channelPWM1 ≠ config.channelPWM2
  direction : bridge.Driving → choiceDirection bridge.pwm = bridge.mov
  saturated : bridge.Driving → saturate bridge.pwm = bridge.pwm
  last : bridge.Driving → bridge.lastMov = bridge.mov

/-- While the bridge drives, its channels carry the command it keeps. -/
def Agrees (config : Config) (bridge : Bridge) : Prop :=
  bridge.Driving → Carries config bridge.pwm bridge

private theorem moves_of_driving {config : Config} {bridge : Bridge} (kept : Kept config bridge)
    (driving : bridge.Driving) : bridge.pwm ≠ 0 := by
  intro zero
  have stopped := kept.direction driving
  rw [choiceDirection_stopped.mpr zero] at stopped
  obtain ahead | back := driving
  · exact absurd (stopped.trans ahead) nofun
  · exact absurd (stopped.trans back) nofun

private theorem duties_of_driving {config : Config} {bridge : Bridge} (kept : Kept config bridge)
    (agrees : Agrees config bridge) (driving : bridge.Driving) :
    bridge.duties (config.own bridge.mov) = kPwmMaxDuty ∧
      bridge.duties (config.opposite bridge.mov) =
        kPwmMaxDuty - convertPWM config bridge.pwm := by
  have carried := (carries_moving (moves_of_driving kept driving)).mp (agrees driving)
  rwa [kept.direction driving] at carried

private theorem write_same {bridge : Bridge} (same : bridge.duties channel = duty) :
    bridge.write channel duty = bridge := by
  unfold Bridge.write
  rw [← same, Function.update_eq_self]

/-- A bridge that drives is not disturbed by holding up its own channel. -/
theorem write_own {config : Config} {bridge : Bridge} (kept : Kept config bridge)
    (agrees : Agrees config bridge) (driving : bridge.Driving) :
    bridge.write (config.own bridge.mov) kPwmMaxDuty = bridge :=
  write_same (duties_of_driving kept agrees driving).1

theorem brakes_cases {config : Config} {bridge : Bridge} (kept : Kept config bridge)
    (writes : Writes) :
    ∃ movement, (bridge.Driving → movement = bridge.mov) ∧
      ((∃ err after, enterBrakeState config bridge writes = (err, after) ∧ err ≠ .ok ∧
        ¬ (writes.first = .ok ∧ writes.second = .ok) ∧
        after = { bridge with duties := after.duties } ∧
        (Agrees config bridge → bridge.Driving → after = bridge)) ∨
      (writes.first = .ok ∧ writes.second = .ok ∧ enterBrakeState config bridge writes =
        (.ok, (bridge.write (config.own movement) kPwmMaxDuty).write
          (config.opposite movement) kPwmMaxDuty))) := by
  obtain ⟨movement, same, entered⟩ := enterBrakeState_eq config bridge writes
  rw [entered]
  refine ⟨movement, same, ?_⟩
  obtain ⟨first, wrote⟩ | ⟨first, second, wrote⟩ | ⟨first, second, wrote⟩ :=
    setDuties_cases (Nat.le_refl _) (Nat.le_refl _) bridge (config.own movement)
      (config.opposite movement) writes
  · exact .inl ⟨_, _, wrote, first, fun both => first both.1, rfl, fun _ _ => rfl⟩
  · refine .inl ⟨_, _, wrote, second, fun both => second both.2, rfl, fun agrees driving => ?_⟩
    rw [same driving]
    exact write_own kept agrees driving
  · exact .inr ⟨first, second, wrote⟩

theorem drive_eq (config : Config) (bridge : Bridge) {direction : Movement}
    (moving : direction = .forward ∨ direction = .backward) (duty : Nat)
    (brakeWrites driveWrites : Writes) :
    drive config bridge direction duty brakeWrites driveWrites =
      let braked := if reversing bridge direction then enterBrakeState config bridge brakeWrites
        else (.ok, bridge)
      if braked.1 ≠ .ok then braked
      else
        let wrote := setDuties braked.2 (config.own direction) kPwmMaxDuty
          (config.opposite direction) (kPwmMaxDuty - duty) driveWrites
        if wrote.1 = .ok then (wrote.1, { wrote.2 with mov := direction, lastMov := direction })
        else wrote := by
  obtain rfl | rfl := moving <;> rfl

private theorem driving_of_reversing {bridge : Bridge} (turning : reversing bridge direction) :
    bridge.Driving := by
  obtain ⟨ahead, -⟩ | ⟨back, -⟩ := turning
  · exact .inl ahead
  · exact .inr back

private theorem own_of_reversing (config : Config) {bridge : Bridge}
    (turning : reversing bridge direction) :
    config.own direction = config.opposite bridge.mov := by
  obtain ⟨ahead, rfl⟩ | ⟨back, rfl⟩ := turning
  · rw [ahead]
    rfl
  · rw [back]
    rfl

theorem direction_of_straight {bridge : Bridge} {direction : Movement}
    (moving : direction = .forward ∨ direction = .backward) (driving : bridge.Driving)
    (straight : ¬ reversing bridge direction) : bridge.mov = direction := by
  obtain rfl | rfl := moving
  · obtain ahead | back := driving
    · exact ahead
    · exact absurd (.inr ⟨back, rfl⟩) straight
  · obtain ahead | back := driving
    · exact absurd (.inl ⟨ahead, rfl⟩) straight
    · exact back

/-- Driving either ends with the channels at the new duty, or leaves what the
bridge keeps alone; then the channels are as they were unless a reversal was
past its braking. -/
theorem drive_cases {config : Config} {bridge : Bridge} (kept : Kept config bridge)
    (started : bridge.initialized = true) {direction : Movement}
    (moving : direction = .forward ∨ direction = .backward) {duty : Nat}
    (brakeWrites driveWrites : Writes) :
    ∃ err after, drive config bridge direction duty brakeWrites driveWrites = (err, after) ∧
      ((err = .ok ∧ driveWrites.first = .ok ∧ driveWrites.second = .ok ∧
        after = { bridge with duties := after.duties, mov := direction, lastMov := direction } ∧
        after.duties (config.own direction) = kPwmMaxDuty ∧
        after.duties (config.opposite direction) = kPwmMaxDuty - duty) ∨
      (err ≠ .ok ∧ after = { bridge with duties := after.duties } ∧
        (Agrees config bridge → bridge.Driving →
          if reversing bridge direction ∧ brakeWrites.first = .ok ∧ brakeWrites.second = .ok then
            ¬ (driveWrites.first = .ok ∧ driveWrites.second = .ok) ∧
              after.duties (config.opposite bridge.mov) = kPwmMaxDuty
          else after = bridge))) := by
  have capped : kPwmMaxDuty - duty ≤ kPwmMaxDuty := Nat.sub_le ..
  rw [drive_eq config bridge moving]
  by_cases turning : reversing bridge direction
  · obtain ⟨movement, same, ⟨err, braked, entered, failed, torn, frame, still⟩ |
      ⟨first, second, entered⟩⟩ := brakes_cases kept brakeWrites
    · simp only [if_pos turning, entered, if_pos failed]
      refine ⟨err, braked, rfl, .inr ⟨failed, frame, fun agrees driving => ?_⟩⟩
      rw [if_neg fun both => torn both.2]
      exact still agrees driving
    · have facing := same (driving_of_reversing turning)
      simp only [if_pos turning, entered, if_neg (not_not_intro (rfl : EspErr.ok = .ok))]
      obtain ⟨refused, wrote⟩ | ⟨went, refused, wrote⟩ | ⟨went, through, wrote⟩ :=
        setDuties_cases (Nat.le_refl _) capped ((bridge.write (config.own movement)
          kPwmMaxDuty).write (config.opposite movement) kPwmMaxDuty) (config.own direction)
          (config.opposite direction) driveWrites
      · rw [wrote]
        refine ⟨_, _, if_neg refused, .inr ⟨refused, rfl, fun _ _ => ?_⟩⟩
        rw [if_pos ⟨turning, first, second⟩, facing]
        exact ⟨fun both => refused both.1, Function.update_self ..⟩
      · rw [wrote]
        refine ⟨_, _, if_neg refused, .inr ⟨refused, rfl, fun _ _ => ?_⟩⟩
        rw [if_pos ⟨turning, first, second⟩, ← own_of_reversing config turning]
        exact ⟨fun both => refused both.2, Function.update_self ..⟩
      · rw [wrote]
        refine ⟨_, _, if_pos rfl, .inl ⟨rfl, went, through, rfl, ?_, Function.update_self ..⟩⟩
        exact (Function.update_of_ne (own_ne_opposite (kept.apart started) direction) _ _).trans
          (Function.update_self ..)
  · simp only [if_neg turning, if_neg (not_not_intro (rfl : EspErr.ok = .ok))]
    obtain ⟨refused, wrote⟩ | ⟨went, refused, wrote⟩ | ⟨went, through, wrote⟩ :=
      setDuties_cases (Nat.le_refl _) capped bridge (config.own direction)
        (config.opposite direction) driveWrites
    · rw [wrote]
      refine ⟨_, _, if_neg refused, .inr ⟨refused, rfl, fun _ _ => ?_⟩⟩
      rw [if_neg fun both => turning both.1]
    · rw [wrote]
      refine ⟨_, _, if_neg refused, .inr ⟨refused, rfl, fun agrees driving => ?_⟩⟩
      rw [if_neg fun both => turning both.1, ← direction_of_straight moving driving turning]
      exact write_own kept agrees driving
    · rw [wrote]
      refine ⟨_, _, if_pos rfl, .inl ⟨rfl, went, through, rfl, ?_, Function.update_self ..⟩⟩
      exact (Function.update_of_ne (own_ne_opposite (kept.apart started) direction) _ _).trans
        (Function.update_self ..)

theorem moving_of_ne {command : Int} (moves : command ≠ 0) :
    choiceDirection command = .forward ∨ choiceDirection command = .backward := by
  have stays := mt choiceDirection_stopped.mp moves
  have brakes := choiceDirection_ne_braking command
  cases direction : choiceDirection command with
  | forward => exact .inl rfl
  | backward => exact .inr rfl
  | stopped => exact absurd direction stays
  | braking => exact absurd direction brakes

/-- What an accepted command comes to: a brake, nothing, or a drive. -/
theorem applyPWM_cases {config : Config} {bridge : Bridge}
    (started : bridge.initialized = true) (newPwm : Int) (brakeWrites driveWrites : Writes) :
    (saturate newPwm = 0 ∧ applyPWM config bridge newPwm brakeWrites driveWrites =
      brake config bridge brakeWrites) ∨
    (saturate newPwm ≠ 0 ∧ saturate newPwm = bridge.pwm ∧
      choiceDirection (saturate newPwm) = bridge.mov ∧
      applyPWM config bridge newPwm brakeWrites driveWrites = (.ok, bridge)) ∨
    (saturate newPwm ≠ 0 ∧
      ¬ (saturate newPwm = bridge.pwm ∧ choiceDirection (saturate newPwm) = bridge.mov) ∧
      applyPWM config bridge newPwm brakeWrites driveWrites =
        let drove := drive config bridge (choiceDirection (saturate newPwm))
          (convertPWM config (saturate newPwm)) brakeWrites driveWrites
        if drove.1 = .ok then (drove.1, { drove.2 with pwm := saturate newPwm }) else drove) := by
  have initialized : ¬ (!bridge.initialized) = true := by simp [started]
  simp only [applyPWM, if_neg initialized]
  by_cases stays : choiceDirection (saturate newPwm) = .stopped
  · exact .inl ⟨choiceDirection_stopped.mp stays, if_pos stays⟩
  have moves := mt choiceDirection_stopped.mpr stays
  rw [if_neg stays]
  by_cases unchanged : saturate newPwm = bridge.pwm ∧
      choiceDirection (saturate newPwm) = bridge.mov
  · exact .inr (.inl ⟨moves, unchanged.1, unchanged.2, if_pos unchanged⟩)
  · exact .inr (.inr ⟨moves, unchanged, if_neg unchanged⟩)

/-- Braking stops the bridge with both channels up, or leaves one that drives as it was. -/
theorem brake_cases {config : Config} {bridge : Bridge} (kept : Kept config bridge)
    (started : bridge.initialized = true) (writes : Writes) :
    ∃ err after, brake config bridge writes = (err, after) ∧
      ((err = .ok ∧ after = { bridge with duties := after.duties, pwm := 0, mov := .braking } ∧
        Carries config 0 after) ∨
      (err ≠ .ok ∧ after = { bridge with duties := after.duties } ∧
        (Agrees config bridge → bridge.Driving → after = bridge))) := by
  have initialized : ¬ (!bridge.initialized) = true := by simp [started]
  simp only [brake, if_neg initialized]
  obtain ⟨movement, -, ⟨err, after, entered, failed, -, frame, still⟩ | ⟨-, -, entered⟩⟩ :=
    brakes_cases kept writes
  · simp only [entered, if_neg failed]
    exact ⟨err, after, rfl, .inr ⟨failed, frame, still⟩⟩
  · simp only [entered, if_true]
    refine ⟨_, _, rfl, .inl ⟨rfl, rfl, ?_⟩⟩
    have apart := own_ne_opposite (kept.apart started) movement
    have held := (Function.update_of_ne apart kPwmMaxDuty
      (Function.update bridge.duties (config.own movement) kPwmMaxDuty)).trans
      (Function.update_self ..)
    have also := Function.update_self (config.opposite movement) kPwmMaxDuty
      (Function.update bridge.duties (config.own movement) kPwmMaxDuty)
    cases movement with
    | backward => exact ⟨also, held⟩
    | _ => exact ⟨held, also⟩

/-- What calls answer can be trusted exactly when the channels carry the kept command. -/
theorem honest_iff {config : Config} {bridge : Bridge} (kept : Kept config bridge) :
    Honest config bridge ↔ Agrees config bridge := by
  constructor
  · intro honest driving
    have moves := moves_of_driving kept driving
    have command := kept.saturated driving
    have unchanged : saturate bridge.pwm = bridge.pwm ∧
        choiceDirection (saturate bridge.pwm) = bridge.mov := by
      rw [command]
      exact ⟨rfl, kept.direction driving⟩
    have shortcut : applyPWM config bridge bridge.pwm ⟨.ok, .ok⟩ ⟨.ok, .ok⟩ = (.ok, bridge) := by
      obtain ⟨zero, -⟩ | ⟨-, -, -, applied⟩ | ⟨-, other, -⟩ :=
        applyPWM_cases (kept.started driving) bridge.pwm ⟨.ok, .ok⟩ ⟨.ok, .ok⟩
      · exact absurd (command.symm.trans zero) moves
      · exact applied
      · exact absurd unchanged other
    have carried := honest bridge.pwm ⟨.ok, .ok⟩ ⟨.ok, .ok⟩ bridge shortcut
    rwa [command] at carried
  · intro agrees newPwm brakeWrites driveWrites after applied
    obtain started | off := Bool.eq_false_or_eq_true bridge.initialized
    case inr => simp [applyPWM, off] at applied
    obtain ⟨zero, stops⟩ | ⟨moves, same, facing, stays⟩ | ⟨moves, -, drives⟩ :=
      applyPWM_cases started newPwm brakeWrites driveWrites
    · rw [stops] at applied
      obtain ⟨err, braked, called, ⟨-, -, carries⟩ | ⟨failed, -⟩⟩ :=
        brake_cases kept started brakeWrites
      · cases called.symm.trans applied
        rw [zero]
        exact carries
      · cases called.symm.trans applied
        exact absurd rfl failed
    · cases stays.symm.trans applied
      rw [same]
      apply agrees
      rw [Bridge.Driving, ← facing]
      exact moving_of_ne moves
    · obtain ⟨err, drove, called, ⟨rfl, -, -, -, held, braking⟩ | ⟨failed, -⟩⟩ :=
        drive_cases kept started (moving_of_ne moves) brakeWrites driveWrites
      · rw [drives, called] at applied
        cases applied
        exact (carries_moving moves).mpr ⟨held, braking⟩
      · rw [drives, called] at applied
        simp only [if_neg failed] at applied
        cases applied
        exact absurd rfl failed

/-! ### Every run -/

theorem coast_cases {config : Config} {bridge : Bridge} (started : bridge.initialized = true)
    (writes : Writes) :
    ∃ err after, coast config bridge writes = (err, after) ∧
      ((err = .ok ∧ writes.second = .ok ∧
        after = { bridge with duties := after.duties, pwm := 0, mov := .stopped }) ∨
      (err ≠ .ok ∧ ((writes.first ≠ .ok ∧ after = bridge) ∨
        (writes.first = .ok ∧ writes.second ≠ .ok ∧
          after = bridge.write (config.opposite bridge.lastMov) 0)))) := by
  have initialized : ¬ (!bridge.initialized) = true := by simp [started]
  have ordered : (if bridge.lastMov = .backward then
      setDuties bridge config.channelPWM1 0 config.channelPWM2 0 writes
      else setDuties bridge config.channelPWM2 0 config.channelPWM1 0 writes) =
      setDuties bridge (config.opposite bridge.lastMov) 0 (config.own bridge.lastMov) 0 writes := by
    cases bridge.lastMov <;> rfl
  simp only [coast, if_neg initialized, ordered]
  obtain ⟨refused, wrote⟩ | ⟨went, refused, wrote⟩ | ⟨went, through, wrote⟩ :=
    setDuties_cases (Nat.zero_le _) (Nat.zero_le _) bridge (config.opposite bridge.lastMov)
      (config.own bridge.lastMov) writes
  · rw [wrote]
    exact ⟨_, _, if_neg refused, .inr ⟨refused, .inl ⟨refused, rfl⟩⟩⟩
  · rw [wrote]
    exact ⟨_, _, if_neg refused, .inr ⟨refused, .inr ⟨went, refused, rfl⟩⟩⟩
  · rw [wrote]
    exact ⟨_, _, if_pos rfl, .inl ⟨rfl, through, rfl⟩⟩

private theorem kept_duties {config : Config} {bridge after : Bridge} (kept : Kept config bridge)
    (frame : after = { bridge with duties := after.duties }) : Kept config after := by
  rw [frame]
  exact ⟨kept.started, kept.apart, kept.direction, kept.saturated, kept.last⟩

/-- A bridge that does not drive has only its channels to keep apart. -/
theorem kept_still {config : Config} {bridge : Bridge} (still : ¬ bridge.Driving)
    (apart : bridge.initialized = true → config.channelPWM1 ≠ config.channelPWM2) :
    Kept config bridge where
  started := fun driving => absurd driving still
  apart := apart
  direction := fun driving => absurd driving still
  saturated := fun driving => absurd driving still
  last := fun driving => absurd driving still

theorem not_driving_stopped {bridge : Bridge} (stopped : bridge.mov = .stopped) :
    ¬ bridge.Driving := by
  rintro (ahead | back)
  · exact absurd (ahead.symm.trans stopped) nofun
  · exact absurd (back.symm.trans stopped) nofun

theorem not_driving_braking {bridge : Bridge} (braking : bridge.mov = .braking) :
    ¬ bridge.Driving := by
  rintro (ahead | back)
  · exact absurd (ahead.symm.trans braking) nofun
  · exact absurd (back.symm.trans braking) nofun

private theorem coast_still {config : Config} {bridge : Bridge} (stopped : bridge.mov = .stopped)
    (writes : Writes) : (coast config bridge writes).2.mov = .stopped ∧
      (coast config bridge writes).2.initialized = bridge.initialized := by
  obtain started | off := Bool.eq_false_or_eq_true bridge.initialized
  · obtain ⟨err, after, called, ⟨-, -, frame⟩ | ⟨-, ⟨-, rfl⟩ | ⟨-, -, rfl⟩⟩⟩ :=
      @coast_cases config bridge started writes
    · rw [called, frame]
      exact ⟨rfl, rfl⟩
    · rw [called]
      exact ⟨stopped, rfl⟩
    · rw [called]
      exact ⟨stopped, rfl⟩
  · simp [coast, off, stopped]

private theorem initChannel_frame (bridge : Bridge) (channel : UInt8) (answers : ChannelAnswers) :
    ∃ duties, (initChannel bridge channel answers).2 = { bridge with duties := duties } := by
  unfold initChannel
  split_ifs
  · exact ⟨_, rfl⟩
  · exact ⟨_, rfl⟩
  · exact ⟨_, rfl⟩
  · exact ⟨_, rfl⟩
  · exact ⟨_, rfl⟩

/-- Setting up leaves a bridge that was set up alone, and one that was not at rest. -/
theorem init_cases {config : Config} {bridge : Bridge} (kept : Kept config bridge)
    (timer : EspErr) (first second : ChannelAnswers) (writes : Writes) :
    (init config bridge timer first second writes).2 = bridge ∨
    (¬ bridge.Driving ∧ ¬ (init config bridge timer first second writes).2.Driving ∧
      ((init config bridge timer first second writes).2.initialized = true →
        config.channelPWM1 ≠ config.channelPWM2)) := by
  obtain started | off := Bool.eq_false_or_eq_true bridge.initialized
  · exact .inl (by simp [init, started])
  have still : ¬ bridge.Driving := fun driving =>
    absurd ((kept.started driving).symm.trans off) nofun
  refine .inr ⟨still, ?_⟩
  have running : ¬ bridge.initialized = true := by simp [off]
  have untouched (duties : UInt8 → Nat) : ¬ { bridge with duties := duties }.Driving ∧
      ({ bridge with duties := duties }.initialized = true →
        config.channelPWM1 ≠ config.channelPWM2) :=
    ⟨still, fun started => absurd started running⟩
  obtain ⟨oneDuties, one⟩ := initChannel_frame bridge config.channelPWM1 first
  obtain ⟨bothDuties, both⟩ := initChannel_frame { bridge with duties := oneDuties }
    config.channelPWM2 second
  simp only [init, if_neg running]
  split
  · exact untouched bridge.duties
  rename_i distinct
  split
  · exact untouched bridge.duties
  split
  · rw [one]
    exact untouched oneDuties
  rw [one]
  split
  · rw [both]
    exact untouched bothDuties
  obtain ⟨stopped, -⟩ := @coast_still config
    { (initChannel { bridge with duties := oneDuties } config.channelPWM2 second).2 with
      initialized := true, pwm := 0, mov := .stopped, lastMov := .forward } rfl writes
  exact ⟨not_driving_stopped stopped, fun _ same => distinct (.inr same)⟩

private theorem kept_brake {config : Config} {bridge : Bridge} (kept : Kept config bridge)
    (writes : Writes) : Kept config (brake config bridge writes).2 := by
  obtain started | off := Bool.eq_false_or_eq_true bridge.initialized
  case inr => simpa [brake, off] using kept
  obtain ⟨err, after, called, ⟨-, frame, -⟩ | ⟨-, frame, -⟩⟩ := brake_cases kept started writes
  · rw [called, frame]
    exact kept_still (not_driving_braking rfl) kept.apart
  · rw [called]
    exact kept_duties kept frame

theorem kept_call {config : Config} {bridge : Bridge} (kept : Kept config bridge)
    (event : Event) : Kept config (call config bridge event).2 := by
  cases event with
  | init timer first second writes =>
    obtain same | ⟨-, still, apart⟩ := init_cases kept timer first second writes
    · rwa [call, same]
    · exact kept_still still apart
  | brake writes => exact kept_brake kept writes
  | coast writes =>
    obtain started | off := Bool.eq_false_or_eq_true bridge.initialized
    case inr => simpa [call, coast, off] using kept
    obtain ⟨err, after, called, ⟨-, -, frame⟩ | ⟨-, ⟨-, rfl⟩ | ⟨-, -, rfl⟩⟩⟩ :=
      @coast_cases config bridge started writes
    · rw [call, called, frame]
      exact kept_still (not_driving_stopped rfl) kept.apart
    · rw [call, called]
      exact kept
    · rw [call, called]
      exact kept_duties kept rfl
  | applyPWM newPwm brakeWrites driveWrites =>
    obtain started | off := Bool.eq_false_or_eq_true bridge.initialized
    case inr => simpa [call, applyPWM, off] using kept
    obtain ⟨-, stops⟩ | ⟨-, -, -, stays⟩ | ⟨moves, -, drives⟩ :=
      @applyPWM_cases config bridge started newPwm brakeWrites driveWrites
    · rw [call, stops]
      exact kept_brake kept brakeWrites
    · rw [call, stays]
      exact kept
    obtain ⟨err, after, drove, ⟨rfl, -, -, frame, -, -⟩ | ⟨failed, frame, -⟩⟩ :=
      drive_cases kept started (moving_of_ne moves) brakeWrites driveWrites
    · rw [call, drives, drove, frame]
      exact ⟨fun _ => started, kept.apart, fun _ => rfl, fun _ => saturate_saturate newPwm,
        fun _ => rfl⟩
    · rw [call, drives, drove]
      simp only [if_neg failed]
      exact kept_duties kept frame

private theorem agrees_still {config : Config} {bridge : Bridge} (still : ¬ bridge.Driving) :
    Agrees config bridge :=
  fun driving => absurd driving still

private theorem agrees_brake {config : Config} {bridge : Bridge} (kept : Kept config bridge)
    (agrees : Agrees config bridge) (writes : Writes) :
    Agrees config (brake config bridge writes).2 := by
  obtain started | off := Bool.eq_false_or_eq_true bridge.initialized
  case inr => simpa [brake, off] using agrees
  obtain ⟨err, after, called, ⟨-, frame, -⟩ | ⟨-, frame, still⟩⟩ := brake_cases kept started writes
  · rw [called, frame]
    exact agrees_still (not_driving_braking rfl)
  · rw [called]
    intro driving
    have drove : bridge.Driving := by
      rw [frame] at driving
      exact driving
    rw [still agrees drove]
    exact agrees drove

/-- A coast that stops half way has let go of the braking channel, which matters
unless that channel was down anyway. -/
theorem agrees_coasted_iff {config : Config} {bridge : Bridge} (kept : Kept config bridge)
    (agrees : Agrees config bridge) {writes : Writes} (went : writes.first = .ok)
    (refused : writes.second ≠ .ok) :
    Agrees config (bridge.write (config.opposite bridge.lastMov) 0) ↔
      ¬ Tears config bridge (.coast writes) := by
  have torn_iff : Tears config bridge (.coast writes) ↔
      bridge.Driving ∧ bridge.duties (config.opposite bridge.mov) ≠ 0 := by
    constructor
    · rintro ⟨-, -, ⟨ahead, up⟩ | ⟨back, up⟩⟩
      · exact ⟨.inl ahead, by rwa [ahead]⟩
      · exact ⟨.inr back, by rwa [back]⟩
    · rintro ⟨ahead | back, up⟩
      · rw [ahead] at up
        exact ⟨went, refused, .inl ⟨ahead, up⟩⟩
      · rw [back] at up
        exact ⟨went, refused, .inr ⟨back, up⟩⟩
  rw [torn_iff]
  constructor
  · rintro still ⟨driving, up⟩
    have carried := (carries_moving (moves_of_driving kept driving)).mp (still driving)
    have braking := carried.2
    rw [kept.direction driving, kept.last driving] at braking
    have down : 0 = kPwmMaxDuty - convertPWM config bridge.pwm :=
      (Function.update_self ..).symm.trans braking
    exact up ((duties_of_driving kept agrees driving).2.trans down.symm)
  · intro untorn driving
    have down : bridge.duties (config.opposite bridge.lastMov) = 0 := by
      rw [kept.last driving]
      exact not_not.mp fun up => untorn ⟨driving, up⟩
    rw [write_same down]
    exact agrees driving

/-- A drive that failed leaves what it found, or both channels up. -/
theorem agrees_failed_iff {config : Config} {bridge after : Bridge} (kept : Kept config bridge)
    (agrees : Agrees config bridge) (frame : after = { bridge with duties := after.duties })
    (left : bridge.Driving →
      if reversing bridge (choiceDirection (saturate newPwm)) ∧ brakeWrites.first = .ok ∧
          brakeWrites.second = .ok then
        ¬ (driveWrites.first = .ok ∧ driveWrites.second = .ok) ∧
          after.duties (config.opposite bridge.mov) = kPwmMaxDuty
      else after = bridge) :
    Agrees config after ↔ ¬ Tears config bridge (.applyPWM newPwm brakeWrites driveWrites) := by
  by_cases past : reversing bridge (choiceDirection (saturate newPwm)) ∧
      brakeWrites.first = .ok ∧ brakeWrites.second = .ok
  · have driving := driving_of_reversing past.1
    have up := left driving
    rw [if_pos past] at up
    refine iff_of_false (fun still => ?_) fun untorn => untorn ⟨past.1, past.2.1, past.2.2, up.1⟩
    -- braked, yet the kept command wants the bridge to move
    rw [frame] at still
    have carried := (carries_moving (moves_of_driving kept driving)).mp (still driving)
    have braking := carried.2
    rw [kept.direction driving] at braking
    have moves := convertPWM_pos config (moves_of_driving kept driving)
    have both : kPwmMaxDuty = kPwmMaxDuty - convertPWM config bridge.pwm := up.2.symm.trans braking
    simp only [kPwmMaxDuty] at both
    omega
  · refine iff_of_true (fun driving => ?_) fun torn => past ⟨torn.1, torn.2.1, torn.2.2.1⟩
    have drove : bridge.Driving := by
      rw [frame] at driving
      exact driving
    have same := left drove
    rw [if_neg past] at same
    rw [same]
    exact agrees drove

/-- One call keeps the agreement exactly when it does not end half way. -/
theorem agrees_call_iff {config : Config} {bridge : Bridge} (kept : Kept config bridge)
    (agrees : Agrees config bridge) (event : Event) :
    Agrees config (call config bridge event).2 ↔ ¬ Tears config bridge event := by
  cases event with
  | init timer first second writes =>
    refine iff_of_true ?_ id
    obtain same | ⟨-, still, -⟩ := init_cases kept timer first second writes
    · rwa [call, same]
    · exact agrees_still still
  | brake writes => exact iff_of_true (agrees_brake kept agrees writes) id
  | coast writes =>
    obtain started | off := Bool.eq_false_or_eq_true bridge.initialized
    case inr =>
      have still : ¬ bridge.Driving := fun driving =>
        absurd ((kept.started driving).symm.trans off) nofun
      apply iff_of_true (by simpa [call, coast, off] using agrees)
      rintro ⟨-, -, ⟨ahead, -⟩ | ⟨back, -⟩⟩
      · exact still (.inl ahead)
      · exact still (.inr back)
    obtain ⟨err, after, called, ⟨-, through, frame⟩ | ⟨-, ⟨refused, rfl⟩ | ⟨went, refused, rfl⟩⟩⟩ :=
      @coast_cases config bridge started writes
    · rw [call, called, frame]
      exact iff_of_true (agrees_still (not_driving_stopped rfl)) fun torn => torn.2.1 through
    · rw [call, called]
      exact iff_of_true agrees fun torn => refused torn.1
    · rw [call, called]
      exact agrees_coasted_iff kept agrees went refused
  | applyPWM newPwm brakeWrites driveWrites =>
    obtain started | off := Bool.eq_false_or_eq_true bridge.initialized
    case inr =>
      refine iff_of_true (by simpa [call, applyPWM, off] using agrees) fun torn => ?_
      exact absurd ((kept.started (driving_of_reversing torn.1)).symm.trans off) nofun
    obtain ⟨zero, stops⟩ | ⟨-, -, facing, stays⟩ | ⟨moves, -, drives⟩ :=
      @applyPWM_cases config bridge started newPwm brakeWrites driveWrites
    · rw [call, stops]
      refine iff_of_true (agrees_brake kept agrees brakeWrites) fun torn => ?_
      have turning := torn.1
      rw [choiceDirection_stopped.mpr zero] at turning
      obtain ⟨-, other⟩ | ⟨-, other⟩ := turning
      · exact absurd other nofun
      · exact absurd other nofun
    · rw [call, stays]
      refine iff_of_true agrees fun torn => ?_
      obtain ⟨ahead, back⟩ | ⟨back, ahead⟩ := torn.1
      · exact absurd (back.symm.trans (facing.trans ahead)) nofun
      · exact absurd (ahead.symm.trans (facing.trans back)) nofun
    obtain ⟨err, after, drove, ⟨rfl, first, second, frame, held, braking⟩ |
      ⟨failed, frame, after_⟩⟩ :=
      drive_cases kept started (moving_of_ne moves) brakeWrites driveWrites
    · rw [call, drives, drove]
      exact iff_of_true (fun _ => (carries_moving moves).mpr ⟨held, braking⟩)
        fun torn => torn.2.2.2 ⟨first, second⟩
    · rw [call, drives, drove]
      simp only [if_neg failed]
      exact agrees_failed_iff kept agrees frame (after_ agrees)

/-- In every run, from construction on: `applyPWM` can be believed in every state
reached exactly when no call of the run ended half way. -/
theorem applyPWM_honest_iff (config : Config) (duties : UInt8 → Nat) (events : List Event) :
    Along (step config) (fun bridge event => ∀ next, step config bridge event = some next →
        Honest config next) (.constructed duties) events ↔
      Along (step config) (fun bridge event => ¬ Tears config bridge event)
        (.constructed duties) events := by
  have still : ¬ (Bridge.constructed duties).Driving := not_driving_stopped rfl
  have kept : Kept config (.constructed duties) := kept_still still nofun
  have keeps {bridge : Bridge} {event : Event} {next : Bridge} (kept : Kept config bridge)
      (stepped : step config bridge event = some next) : Kept config next := by
    cases stepped
    exact kept_call kept event
  refine along_keeps_iff keeps ?_ kept ((honest_iff kept).mpr (agrees_still still)) events
  intro bridge event kept honest
  have after := honest_iff (kept_call kept event)
  have one := agrees_call_iff kept ((honest_iff kept).mp honest) event
  constructor
  · exact fun keeps => one.mp (after.mp (keeps _ rfl))
  · intro untorn next stepped
    cases stepped
    exact after.mpr (one.mpr untorn)

/-- Half forward, then a coast whose second write fails: the motor runs at full
power, and half forward again is answered without a write. -/
theorem shortcut_after_torn_coast : ¬ ∀ (config : Config) (duties : UInt8 → Nat)
    (events : List Event) (bridge after : Bridge) (newPwm : Int)
    (brakeWrites driveWrites : Writes),
    run (step config) (.constructed duties) events = some bridge → bridge.initialized = true →
      applyPWM config bridge newPwm brakeWrites driveWrites = (.ok, after) →
      Carries config (saturate newPwm) after := by
  intro always
  have carried := always (.make 1 2 0 1 0) (fun _ => 0)
    [.init .ok ⟨true, true, .ok, .ok⟩ ⟨true, true, .ok, .ok⟩ ⟨.ok, .ok⟩,
      .applyPWM 50 ⟨.ok, .ok⟩ ⟨.ok, .ok⟩, .coast ⟨.ok, .other 1⟩] _ _ 50 ⟨.ok, .ok⟩ ⟨.ok, .ok⟩
    rfl rfl rfl
  exact absurd carried.2 (by decide)

end BallyOS.HBridge
