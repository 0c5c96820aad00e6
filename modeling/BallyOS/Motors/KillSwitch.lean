import BallyOS.Motors.Outputs
import BallyOS.HBridge.Pulses

/-! A disarming that nobody undoes. Whatever the flags hold and whoever writes them, the pass
after the one under way puts both motors at rest, and every later pass leaves them there. -/
namespace BallyOS.Motors
open Library Flags HBridge

/-- The bridge holds its motor by both channels. -/
structure Braked (config : Config) (bridge : Bridge) : Prop where
  mov : bridge.mov = .braking
  first : bridge.duties config.channelPWM1 = kPwmMaxDuty
  second : bridge.duties config.channelPWM2 = kPwmMaxDuty

/-- The bridge lets its motor go by both channels. -/
structure Coasted (config : Config) (bridge : Bridge) : Prop where
  mov : bridge.mov = .stopped
  first : bridge.duties config.channelPWM1 = 0
  second : bridge.duties config.channelPWM2 = 0

def Rests (config : Config) (bridge : Bridge) : Prop :=
  Braked config bridge ∨ Coasted config bridge

/-- A bridge that was made and set up, whatever was called on it since. -/
def SetUp (config : Config) (bridge : Bridge) : Prop :=
  bridge.initialized = true ∧ ∃ duties events,
    run (HBridge.step config) (.constructed duties) events = some bridge

/-- Nobody arms the motors in the step. -/
def NoArming {Task : Type} (system : System Task) : Event Task → Prop
  | .act task _ => (system.calls task).head? ≠ some (.storeArmed true)
  | _ => True

/-- Nobody asks for a coast in the step. -/
def NoCoast {Task : Type} (system : System Task) : Event Task → Prop
  | .act task _ => ∀ durationMs, (system.calls task).head? ≠ some (.setCoast durationMs)
  | _ => True

/-- The driver does what a pass asks of it. -/
def Granted {Task : Type} (_ : System Task) : Event Task → Prop
  | .pass _ answers => answers = ⟨⟨.ok, .ok⟩, ⟨.ok, .ok⟩⟩
  | _ => True

instance {Task : Type} (system : System Task) (event : Event Task) :
    Decidable (NoArming system event ∧ Granted system event) :=
  match event with
  | .act .. => inferInstanceAs (Decidable (_ ≠ _ ∧ True))
  | .pass .. => inferInstanceAs (Decidable (True ∧ _ = _))
  | .order .. | .check .. => isTrue ⟨trivial, trivial⟩

/-- The pass has still to look at the arming. -/
def Pass.beforeArming : Pass → Bool
  | .readLeft | .readRight _ | .loadArmed _ _ => true
  | _ => false

/-- The pass at whose end a disarming is obeyed: the one under way, if it has
still to look, and else the next. -/
def System.obeyed {Task : Type} (system : System Task) : Nat :=
  system.passes + if system.pass.beforeArming then 1 else 2

/-! ### Bridges -/

/-- A motor at rest is turned neither way. -/
theorem heading_of_rests {config : Config} {bridge : Bridge} (rests : Rests config bridge) :
    heading config bridge.duties = .stopped := by
  obtain ⟨-, first, second⟩ | ⟨-, first, second⟩ := rests
  · simp [heading, first, second]
  · simp [heading, first, second]

/-- What calls keep of a bridge that was set up. -/
structure Sound (config : Config) (bridge : Bridge) : Prop where
  kept : Kept config bridge
  initialized : bridge.initialized = true

private theorem initialized_brake {config : Config} {bridge : Bridge} (kept : Kept config bridge)
    (started : bridge.initialized = true) (writes : Writes) :
    (brake config bridge writes).2.initialized = true := by
  obtain ⟨err, after, called, ⟨-, frame, -⟩ | ⟨-, frame, -⟩⟩ := brake_cases kept started writes
  · rw [called, frame]
    exact started
  · rw [called, frame]
    exact started

private theorem initialized_applyPWM {config : Config} {bridge : Bridge} (kept : Kept config bridge)
    (started : bridge.initialized = true) (newPwm : Int) (brakeWrites driveWrites : Writes) :
    (applyPWM config bridge newPwm brakeWrites driveWrites).2.initialized = true := by
  obtain ⟨-, stops⟩ | ⟨-, -, -, stays⟩ | ⟨moves, -, drives⟩ :=
    @applyPWM_cases config bridge started newPwm brakeWrites driveWrites
  · rw [stops]
    exact initialized_brake kept started brakeWrites
  · rw [stays]
    exact started
  · obtain ⟨err, after, drove, ⟨rfl, -, -, frame, -, -⟩ | ⟨failed, frame, -⟩⟩ :=
      drive_cases kept started (moving_of_ne moves) brakeWrites driveWrites
    · rw [drives, drove, frame]
      exact started
    · rw [drives, drove]
      simp only [if_neg failed]
      rw [frame]
      exact started

private theorem initialized_coast {config : Config} {bridge : Bridge}
    (started : bridge.initialized = true) (writes : Writes) :
    (coast config bridge writes).2.initialized = true := by
  obtain ⟨err, after, called, ⟨-, -, frame⟩ | ⟨-, ⟨-, rfl⟩ | ⟨-, -, rfl⟩⟩⟩ :=
    @coast_cases config bridge started writes
  · rw [called, frame]
    exact started
  · rw [called]
    exact started
  · rw [called]
    exact started

private theorem sound_of_setUp {config : Config} {bridge : Bridge} (setUp : SetUp config bridge) :
    Sound config bridge := by
  obtain ⟨initialized, duties, events, ran⟩ := setUp
  have made : Kept config (.constructed duties) :=
    kept_still (not_driving_stopped rfl) nofun
  refine ⟨run_invariant (fun kept stepped => ?_) made ran, initialized⟩
  cases stepped
  exact kept_call kept _

private theorem sound_output {config : Config} {bridge : Bridge} (sound : Sound config bridge)
    (coasting : Bool) (pwm : Int) (answers : Answers) :
    Sound config (output config bridge coasting pwm answers) := by
  obtain ⟨kept, started⟩ := sound
  refine ⟨kept_call kept _, ?_⟩
  cases coasting with
  | true => exact initialized_coast started answers.brakeWrites
  | false => exact initialized_applyPWM kept started pwm answers.brakeWrites answers.driveWrites

/-- A brake whose writes are granted holds the motor. -/
theorem braked_of_granted {config : Config} {bridge : Bridge} (sound : Sound config bridge) :
    Braked config (brake config bridge ⟨.ok, .ok⟩).2 := by
  have initialized : ¬ (!bridge.initialized) = true := by simp [sound.initialized]
  obtain ⟨err, after, called, ⟨-, frame, carries⟩ | ⟨failed, -⟩⟩ :=
    brake_cases sound.kept sound.initialized ⟨.ok, .ok⟩
  · rw [called, frame]
    exact ⟨rfl, carries.1, carries.2⟩
  · obtain ⟨movement, -, ⟨-, -, -, -, torn, -⟩ | ⟨-, -, entered⟩⟩ :=
      brakes_cases sound.kept ⟨.ok, .ok⟩
    · exact absurd ⟨rfl, rfl⟩ torn
    · simp only [brake, if_neg initialized, entered, if_true] at called
      cases called
      exact absurd rfl failed

/-- So does a coast let it go. -/
theorem coasted_of_granted {config : Config} {bridge : Bridge} (sound : Sound config bridge) :
    Coasted config (coast config bridge ⟨.ok, .ok⟩).2 := by
  have apart := sound.kept.apart sound.initialized
  have initialized : ¬ (!bridge.initialized) = true := by simp [sound.initialized]
  simp only [coast, if_neg initialized, setDuties, setDuty]
  split
  · exact ⟨rfl, by simp [apart], by simp⟩
  · exact ⟨rfl, by simp, by simp [apart.symm]⟩

private theorem rests_output {config : Config} {bridge : Bridge} (sound : Sound config bridge)
    (coasting : Bool) : Rests config (output config bridge coasting 0 ⟨⟨.ok, .ok⟩, ⟨.ok, .ok⟩⟩) ∧
      (coasting = false →
        Braked config (output config bridge coasting 0 ⟨⟨.ok, .ok⟩, ⟨.ok, .ok⟩⟩)) := by
  cases coasting with
  | true => exact ⟨.inr (coasted_of_granted sound), nofun⟩
  | false =>
    have zero : output config bridge false 0 ⟨⟨.ok, .ok⟩, ⟨.ok, .ok⟩⟩ =
        (brake config bridge ⟨.ok, .ok⟩).2 := by
      obtain ⟨-, stops⟩ | ⟨moves, -⟩ | ⟨moves, -⟩ :=
        @applyPWM_cases config bridge sound.initialized 0 ⟨.ok, .ok⟩ ⟨.ok, .ok⟩
      · exact congrArg Prod.snd stops
      · exact absurd rfl moves
      · exact absurd rfl moves
    rw [zero]
    exact ⟨.inl (braked_of_granted sound), fun _ => braked_of_granted sound⟩

/-! ### A pass that looked -/

/-- The pass puts out nothing but rest. -/
def Pass.Idle : Pass → Prop
  | .loadCoast leftPwm rightPwm | .outputLeft _ leftPwm rightPwm => leftPwm = 0 ∧ rightPwm = 0
  | .outputRight _ rightPwm => rightPwm = 0
  | _ => True

/-- The pass found no coast, and will find none if nobody asks for one. -/
def Pass.Firm (coastUntil : UInt32) : Pass → Prop
  | .loadCoast _ _ => coastUntil = 0
  | .readClock _ | .clearExpired => False
  | .outputLeft coasting _ _ | .outputRight coasting _ => coasting = false
  | _ => True

section

variable {Task : Type} {leftConfig rightConfig : Config}

/-- Both bridges are as calls leave those that were set up. -/
structure SoundBoth (leftConfig rightConfig : Config) (system : System Task) : Prop where
  left : Sound leftConfig system.left
  right : Sound rightConfig system.right

private theorem soundBoth_step [DecidableEq Task] {system next : System Task} {event : Event Task}
    (sound : SoundBoth leftConfig rightConfig system)
    (stepped : step leftConfig rightConfig system event = some next) :
    SoundBoth leftConfig rightConfig next := by
  obtain ⟨left, right⟩ := sound
  cases event with
  | order task order delayFlags =>
    simp only [step] at stepped
    split at stepped
    · cases stepped
      exact ⟨left, right⟩
    · cases stepped
  | act task nowMs =>
    simp only [step] at stepped
    split at stepped
    · cases stepped
    · cases stepped
      rename_i action _ _
      cases action <;> exact ⟨left, right⟩
  | check nowMs =>
    cases stepped
    exact ⟨left, right⟩
  | pass nowMs answers =>
    cases stepped
    unfold advance
    split
    · exact ⟨left, right⟩
    · exact ⟨left, right⟩
    · exact ⟨left, right⟩
    · exact ⟨left, right⟩
    · exact ⟨left, right⟩
    · exact ⟨left, right⟩
    · exact ⟨left, right⟩
    · exact ⟨sound_output left _ _ _, right⟩
    · exact ⟨left, sound_output right _ _ _⟩

/-- The motor rests; `quiet` says that nobody asks for a coast, and then it is braked. -/
structure Held (config : Config) (quiet : Prop) (bridge : Bridge) : Prop where
  rests : Rests config bridge
  braked : quiet → Braked config bridge

/-- The disarming stands: the pass that ends as the one it is obeyed by puts out rest, and
those after it find the motors at rest. -/
structure Standing (leftConfig rightConfig : Config) (obeyed : Nat) (quiet : Prop)
    (system : System Task) : Prop where
  sound : SoundBoth leftConfig rightConfig system
  disarmed : system.armed = false
  idle : obeyed ≤ system.passes + 1 → system.pass.Idle
  firm : obeyed ≤ system.passes + 1 → quiet → system.pass.Firm system.coastUntil
  half : obeyed ≤ system.passes + 1 → ∀ coasting rightPwm,
    system.pass = .outputRight coasting rightPwm → Held leftConfig quiet system.left
  left : obeyed ≤ system.passes → Held leftConfig quiet system.left
  right : obeyed ≤ system.passes → Held rightConfig quiet system.right

/-- What another task does leaves the pass and the bridges alone. -/
theorem standing_of_frame {system next : System Task} {obeyed : Nat} {quiet : Prop}
    (standing : Standing leftConfig rightConfig obeyed quiet system)
    (sound : SoundBoth leftConfig rightConfig next) (disarmed : next.armed = false)
    (coasts : quiet → system.coastUntil = 0 → next.coastUntil = 0)
    (pass : next.pass = system.pass) (passes : next.passes = system.passes)
    (left : next.left = system.left) (right : next.right = system.right) :
    Standing leftConfig rightConfig obeyed quiet next where
  sound := sound
  disarmed := disarmed
  idle := by
    rw [pass, passes]
    exact standing.idle
  firm := by
    rw [pass, passes]
    intro due silent
    have firm := standing.firm due silent
    cases at_ : system.pass with
    | loadCoast leftPwm rightPwm =>
      rw [at_] at firm
      exact coasts silent firm
    | _ => rwa [at_] at firm
  half := by
    rw [pass, passes, left]
    exact standing.half
  left := by
    rw [passes, left]
    exact standing.left
  right := by
    rw [passes, right]
    exact standing.right

private theorem held_output {config : Config} {bridge : Bridge} {quiet : Prop}
    (sound : Sound config bridge) {coasting : Bool} (firm : quiet → coasting = false) :
    Held config quiet (output config bridge coasting 0 ⟨⟨.ok, .ok⟩, ⟨.ok, .ok⟩⟩) :=
  ⟨(rests_output sound coasting).1, fun silent => (rests_output sound coasting).2 (firm silent)⟩

/-- A pass keeps the disarming, wherever it has come to. -/
theorem standing_advance {system : System Task} {obeyed : Nat} {quiet : Prop}
    (standing : Standing leftConfig rightConfig obeyed quiet system) (nowMs : Nat)
    (sound : SoundBoth leftConfig rightConfig
      (advance leftConfig rightConfig system nowMs ⟨⟨.ok, .ok⟩, ⟨.ok, .ok⟩⟩)) :
    Standing leftConfig rightConfig obeyed quiet
      (advance leftConfig rightConfig system nowMs ⟨⟨.ok, .ok⟩, ⟨.ok, .ok⟩⟩) := by
  obtain ⟨before, disarmed, idle, firm, half, left, right⟩ := standing
  obtain ⟨motors, armed, coastUntil, leftBridge, rightBridge, pass, calls, passes⟩ := system
  dsimp only at disarmed idle firm half left right
  subst disarmed
  cases pass with
  | readLeft =>
    exact ⟨sound, rfl, fun _ => trivial, fun _ _ => trivial,
      fun _ _ _ same => (by cases same), left, right⟩
  | readRight leftPwm =>
    exact ⟨sound, rfl, fun _ => trivial, fun _ _ => trivial,
      fun _ _ _ same => (by cases same), left, right⟩
  | loadArmed leftPwm rightPwm =>
    exact ⟨sound, rfl, fun _ => trivial, fun _ _ => trivial,
      fun _ _ _ same => (by cases same), left, right⟩
  | clearDisarmed =>
    exact ⟨sound, rfl, fun _ => ⟨rfl, rfl⟩, fun _ _ => rfl,
      fun _ _ _ same => (by cases same), left, right⟩
  | loadCoast leftPwm rightPwm =>
    by_cases latched : coastUntil ≠ 0 ∧ leftPwm = 0 ∧ rightPwm = 0
    · simp only [advance, if_pos latched] at sound ⊢
      refine ⟨sound, rfl, fun _ => trivial, fun due silent => ?_,
        fun _ _ _ same => (by cases same), left, right⟩
      exact absurd (firm due silent) latched.1
    · simp only [advance, if_neg latched] at sound ⊢
      exact ⟨sound, rfl, idle, fun _ _ => rfl, fun _ _ _ same => (by cases same), left, right⟩
  | readClock until_ =>
    by_cases early : (millis nowMs - until_).toInt32 < 0
    · simp only [advance, if_pos early] at sound ⊢
      exact ⟨sound, rfl, fun _ => ⟨rfl, rfl⟩, fun due silent => (firm due silent).elim,
        fun _ _ _ same => (by cases same), left, right⟩
    · simp only [advance, if_neg early] at sound ⊢
      exact ⟨sound, rfl, fun _ => trivial, fun due silent => (firm due silent).elim,
        fun _ _ _ same => (by cases same), left, right⟩
  | clearExpired =>
    exact ⟨sound, rfl, fun _ => ⟨rfl, rfl⟩, fun _ _ => rfl,
      fun _ _ _ same => (by cases same), left, right⟩
  | outputLeft coasting leftPwm rightPwm =>
    have rest : obeyed ≤ passes + 1 → Held leftConfig quiet
        (output leftConfig leftBridge coasting leftPwm ⟨⟨.ok, .ok⟩, ⟨.ok, .ok⟩⟩) := by
      intro due
      obtain ⟨zero, -⟩ := idle due
      rw [zero]
      exact held_output before.left (firm due)
    exact ⟨sound, rfl, fun due => (idle due).2, firm, fun due _ _ _ => rest due,
      fun due => rest (Nat.le_succ_of_le due), right⟩
  | outputRight coasting rightPwm =>
    refine ⟨sound, rfl, fun _ => trivial, fun _ _ => trivial,
      fun _ _ _ same => (by cases same), fun due => half due coasting rightPwm rfl, fun due => ?_⟩
    have zero : rightPwm = 0 := idle due
    dsimp only [advance]
    rw [zero]
    exact held_output before.right (firm due)

private theorem standing_step [DecidableEq Task] {system next : System Task} {event : Event Task}
    {obeyed : Nat}
    {quiet : Prop} (standing : Standing leftConfig rightConfig obeyed quiet system)
    (allowed : (NoArming system event ∧ Granted system event) ∧ (quiet → NoCoast system event))
    (stepped : step leftConfig rightConfig system event = some next) :
    Standing leftConfig rightConfig obeyed quiet next := by
  obtain ⟨⟨noArming, granted⟩, noCoast⟩ := allowed
  have sound := soundBoth_step standing.sound stepped
  cases event with
  | order task order delayFlags =>
    simp only [step] at stepped
    split at stepped
    · cases stepped
      exact standing_of_frame standing sound standing.disarmed (fun _ => id) rfl rfl rfl rfl
    · cases stepped
  | act task nowMs =>
    simp only [step] at stepped
    split at stepped
    · cases stepped
    · rename_i action rest waiting
      cases stepped
      simp only [NoArming, NoCoast, waiting, List.head?_cons, ne_eq, Option.some.injEq]
        at noArming noCoast
      cases action with
      | storeArmed armed =>
        cases armed with
        | false => exact standing_of_frame standing sound rfl (fun _ => id) rfl rfl rfl rfl
        | true => exact absurd rfl noArming
      | setCoast durationMs =>
        exact standing_of_frame standing sound standing.disarmed
          (fun silent => absurd rfl (noCoast silent durationMs)) rfl rfl rfl rfl
      | clearCoast =>
        exact standing_of_frame standing sound standing.disarmed (fun _ _ => rfl) rfl rfl rfl rfl
      | _ => exact standing_of_frame standing sound standing.disarmed (fun _ => id) rfl rfl rfl rfl
  | check nowMs =>
    cases stepped
    exact standing_of_frame standing sound standing.disarmed (fun _ => id) rfl rfl rfl rfl
  | pass nowMs answers =>
    cases stepped
    cases granted
    exact standing_advance standing nowMs sound

/-- A disarming takes hold with the pass under way, if that has not looked yet. -/
theorem standing_start {system : System Task} (sound : SoundBoth leftConfig rightConfig system)
    (disarmed : system.armed = false) (quiet : Prop) :
    Standing leftConfig rightConfig system.obeyed quiet system := by
  have later : ¬ system.obeyed ≤ system.passes := by
    unfold System.obeyed
    split <;> omega
  have fresh (due : system.obeyed ≤ system.passes + 1) : system.pass.beforeArming = true := by
    unfold System.obeyed at due
    split at due
    · assumption
    · omega
  refine ⟨sound, disarmed, fun due => ?_, fun due _ => ?_, fun due coasting rightPwm at_ => ?_,
    fun due => absurd due later, fun due => absurd due later⟩
  · have early := fresh due
    cases at_ : system.pass with
    | readLeft | readRight | loadArmed => trivial
    | _ => simp [at_, Pass.beforeArming] at early
  · have early := fresh due
    cases at_ : system.pass with
    | readLeft | readRight | loadArmed => trivial
    | _ => simp [at_, Pass.beforeArming] at early
  · have early := fresh due
    simp [at_, Pass.beforeArming] at early

/-- Whatever commands the tasks give, short of arming, a disarming is obeyed by the end of
the pass under way or of the next, and from then on both motors rest; they are braked if
nobody asks for a coast. -/
theorem disarmed_motors_rest [DecidableEq Task] {leftBridge rightBridge : Bridge}
    (leftSetUp : SetUp leftConfig leftBridge) (rightSetUp : SetUp rightConfig rightBridge)
    {before after : List (Event Task)} {start finish : System Task}
    (reached : run (step leftConfig rightConfig) (.boot Task leftBridge rightBridge) before =
      some start)
    (disarmed : start.armed = false)
    (allowed : Along (step leftConfig rightConfig)
      (fun system event => NoArming system event ∧ Granted system event) start after)
    (ran : run (step leftConfig rightConfig) start after = some finish)
    (obeyed : start.obeyed ≤ finish.passes) :
    Rests leftConfig finish.left ∧ Rests rightConfig finish.right ∧
      (Along (step leftConfig rightConfig) NoCoast start after →
        Braked leftConfig finish.left ∧ Braked rightConfig finish.right) := by
  have booted : SoundBoth leftConfig rightConfig (.boot Task leftBridge rightBridge) :=
    ⟨sound_of_setUp leftSetUp, sound_of_setUp rightSetUp⟩
  have sound := run_invariant (fun sound stepped => soundBoth_step sound stepped) booted reached
  have standing {quiet : Prop}
      (silent : Along (step leftConfig rightConfig)
        (fun system event => quiet → NoCoast system event) start after) :
      Standing leftConfig rightConfig start.obeyed quiet finish :=
    run_invariant_along (fun standing met stepped => standing_step standing met stepped)
      (standing_start sound disarmed quiet) (along_both And.intro allowed silent) ran
  have loud := @standing False (along_of_forall (fun _ _ => nofun) start after)
  refine ⟨(loud.left obeyed).rests, (loud.right obeyed).rests, fun silent => ?_⟩
  have hushed := @standing True (along_both (fun met _ _ => met) silent silent)
  exact ⟨(hushed.left obeyed).braked trivial, (hushed.right obeyed).braked trivial⟩

end

private def wholePass (steps : Nat) (nowMs : Nat) : List (Event Bool) :=
  List.replicate steps (.pass nowMs ⟨⟨.ok, .ok⟩, ⟨.ok, .ok⟩⟩)

/-- The motors turn, and a pass is past its look at the arming, when the shell disarms. -/
private def disarmedTurning : List (Event Bool) :=
  [.order true (.drive 60 20 5000) 100, .act true 7, .act true 7, .act true 7] ++
    wholePass 6 8 ++ wholePass 4 9 ++ [.order false .disarm 100, .act false 9]

private def coastWhileDisarmed : List (Event Bool) :=
  wholePass 2 9 ++ [.order true (.coast 50) 100, .act true 10, .order true (.drive 90 0 5000) 100,
    .act true 10] ++ wholePass 7 11

private def setUpBridge (channelPWM1 channelPWM2 : UInt8) : Bridge :=
  (call (.make 1 2 channelPWM1 channelPWM2 20) (.constructed fun _ => 0)
    (.init .ok ⟨true, true, .ok, .ok⟩ ⟨true, true, .ok, .ok⟩ ⟨.ok, .ok⟩)).2

private theorem setUp_setUpBridge : SetUp (.make 1 2 0 1 20) (setUpBridge 0 1) ∧
    SetUp (.make 1 2 2 3 20) (setUpBridge 2 3) :=
  ⟨⟨rfl, fun _ => 0, [.init .ok ⟨true, true, .ok, .ok⟩ ⟨true, true, .ok, .ok⟩ ⟨.ok, .ok⟩], rfl⟩,
    rfl, fun _ => 0, [.init .ok ⟨true, true, .ok, .ok⟩ ⟨true, true, .ok, .ok⟩ ⟨.ok, .ok⟩], rfl⟩

theorem disarmed_motors_rest_while_turning : ∃ start finish,
    run (step (.make 1 2 0 1 20) (.make 1 2 2 3 20))
      (.boot Bool (setUpBridge 0 1) (setUpBridge 2 3))
      disarmedTurning = some start ∧
    heading (.make 1 2 0 1 20) start.left.duties = .forward ∧
    run (step (.make 1 2 0 1 20) (.make 1 2 2 3 20)) start coastWhileDisarmed = some finish ∧
    Rests (.make 1 2 0 1 20) finish.left ∧ Rests (.make 1 2 2 3 20) finish.right ∧
    heading (.make 1 2 0 1 20) finish.left.duties = .stopped ∧
    heading (.make 1 2 2 3 20) finish.right.duties = .stopped := by
  obtain ⟨left, right⟩ := setUp_setUpBridge
  obtain ⟨leftRests, rightRests, -⟩ := @disarmed_motors_rest Bool _ _ _ _ _ left right
    disarmedTurning coastWhileDisarmed _ _ rfl rfl (by decide +kernel) rfl (by decide +kernel)
  exact ⟨_, _, rfl, rfl, rfl, leftRests, rightRests, heading_of_rests leftRests,
    heading_of_rests rightRests⟩

end BallyOS.Motors
