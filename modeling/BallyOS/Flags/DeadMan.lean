import BallyOS.Flags.Flags

/-! The motor commands as flags: a command lasts for its own time, and a check after that
makes what is read of it zero until the next command. What reaches the motors is gated once
more, by the arming. -/
namespace BallyOS.Flags
open Library

structure FlagsPwm extends FlagsBase where
  pwmValues : Nat → Int := fun _ => 0

def saturate (value : Int) : Int :=
  let value := if value > 100 then 100 else value
  if value < -100 then -100 else value

namespace FlagsPwm

def setValue (flags : FlagsPwm) (nowMs : Nat) (index : UInt8) (value : Int8) (time : UInt32) :
    FlagsPwm :=
  if !isValidIndex index then flags
  else { flags.toFlagsBase.setFlag nowMs index.toNat time with
    pwmValues := Function.update flags.pwmValues index.toNat (saturate value.toInt) }

/-- The value as the flag lets it through, which is also what is kept of it. -/
def getValue (flags : FlagsPwm) (index : UInt8) : Int × FlagsPwm :=
  if !isValidIndex index then (0, flags)
  else
    let value := if flags.isActive index.toNat then flags.pwmValues index.toNat else 0
    (value, { flags with pwmValues := Function.update flags.pwmValues index.toNat value })

def check (flags : FlagsPwm) (nowMs : Nat) : FlagsPwm :=
  { flags with toFlagsBase := flags.checkFlagsDuration nowMs }

end FlagsPwm

inductive Event
  | setValue (nowMs : Nat) (index : UInt8) (value : Int8) (time : UInt32)
  | getValue (nowMs : Nat) (index : UInt8)
  | check (nowMs : Nat)
deriving Repr, DecidableEq

def Event.nowMs : Event → Nat
  | setValue nowMs .. | getValue nowMs _ | check nowMs => nowMs

def step : Machine FlagsPwm Event
  | flags, .setValue nowMs index value time => some (flags.setValue nowMs index value time)
  | flags, .getValue _ index => some (flags.getValue index).2
  | flags, .check nowMs => some (flags.check nowMs)

/-- A command as it was given. -/
structure Command where
  nowMs : Nat
  value : Int8
  time : UInt32
deriving Repr, DecidableEq

/-- What is remembered of the calls: the last command for each index, the last check, the
time, and the calls that the next check has to come soon after. -/
structure History where
  commands : UInt8 → Option Command := fun _ => none
  lastCheck : Option Nat := none
  clock : Nat := 0
  anchors : List Nat := []

def History.next (history : History) : Event → History
  | .setValue nowMs index value time =>
    { history with
      commands := Function.update history.commands index (some ⟨nowMs, value, time⟩)
      clock := nowMs
      anchors := history.anchors ++ [nowMs] }
  | .getValue nowMs _ => { history with clock := nowMs }
  | .check nowMs => { history with lastCheck := some nowMs, clock := nowMs, anchors := [nowMs] }

/-- Time goes on, no command lasts for half a wrap, and a check comes within half a wrap of
the last one and of the commands since. -/
def Paces (history : History) (event : Event) : Prop :=
  history.clock ≤ event.nowMs ∧
    match event with
    | .setValue _ _ _ time => time.toNat < 2 ^ 31
    | .getValue _ _ => True
    | .check nowMs => ∀ anchor ∈ history.anchors, nowMs - anchor < 2 ^ 31

def Paced : History → List Event → Prop
  | _, [] => True
  | history, event :: rest => Paces history event ∧ Paced (history.next event) rest

def record (events : List Event) : History := events.foldl History.next {}

/-! ### Outputs -/

/-- What both motors are told. -/
inductive Output
  | coast
  | pwm (left right : Int)
deriving Repr, DecidableEq

structure Robot where
  motors : FlagsPwm
  armed : Bool
  coastUntil : UInt32

def motorLeft : UInt8 := 0
def motorRight : UInt8 := 1

def setOutputs (robot : Robot) (nowMs : Nat) : Output × Robot :=
  let (leftPwm, motors) := robot.motors.getValue motorLeft
  let (rightPwm, motors) := motors.getValue motorRight
  let robot := { robot with motors := motors }
  let (leftPwm, rightPwm, robot) :=
    if !robot.armed then (0, 0, { robot with coastUntil := 0 }) else (leftPwm, rightPwm, robot)
  let (coasting, robot) :=
    if robot.coastUntil ≠ 0 ∧ leftPwm = 0 ∧ rightPwm = 0 then
      if (millis nowMs - robot.coastUntil).toInt32 < 0 then (true, robot)
      else (false, { robot with coastUntil := 0 })
    else (false, robot)
  (if coasting then .coast else .pwm leftPwm rightPwm, robot)

/-! ### Reads -/

private theorem getValue_fst (flags : FlagsPwm) (index : UInt8) :
    (flags.getValue index).1 =
      if isValidIndex index ∧ flags.isActive index.toNat then flags.pwmValues index.toNat
      else 0 := by
  unfold FlagsPwm.getValue
  cases isValidIndex index <;> simp

private theorem getValue_base (flags : FlagsPwm) (index : UInt8) :
    (flags.getValue index).2.toFlagsBase = flags.toFlagsBase := by
  unfold FlagsPwm.getValue
  split <;> rfl

private theorem toNat_ne {index other : UInt8} (differ : other ≠ index) : other.toNat ≠ index.toNat
    :=
  fun same => differ (UInt8.toNat_inj.mp same)

private theorem within_of_valid {index : UInt8} (valid : isValidIndex index = true) :
    index.toNat < kMaxFlags := of_decide_eq_true valid

/-- A command for one index leaves what the others read. -/
theorem getValue_setValue_other (flags : FlagsPwm) (nowMs : Nat) {index other : UInt8}
    (differ : other ≠ index) (value : Int8) (time : UInt32) :
    ((flags.setValue nowMs index value time).getValue other).1 = (flags.getValue other).1 := by
  unfold FlagsPwm.setValue
  split
  · rfl
  rename_i valid
  have within := within_of_valid (by simpa using valid)
  have apart := toNat_ne differ
  have active := FlagsBase.isActive_setFlag flags.toFlagsBase nowMs within time other.toNat
  simp only [apart, decide_false, Bool.or_false] at active
  have kept : Function.update flags.pwmValues index.toNat (saturate value.toInt) other.toNat =
    flags.pwmValues other.toNat := Function.update_of_ne apart ..
  rw [getValue_fst, getValue_fst, active]
  dsimp only
  rw [kept]

/-- So does a read. -/
theorem getValue_getValue_other (flags : FlagsPwm) {index other : UInt8} (differ : other ≠ index) :
    ((flags.getValue index).2.getValue other).1 = (flags.getValue other).1 := by
  have apart := toNat_ne differ
  have kept : (flags.getValue index).2.pwmValues other.toNat = flags.pwmValues other.toNat := by
    unfold FlagsPwm.getValue
    split
    · rfl
    · exact Function.update_of_ne apart ..
  rw [getValue_fst, getValue_fst, getValue_base, kept]

/-! ### Commands and checks -/

/-- What the flag of one index holds: it is up from its command to the first check that comes
too late for it. -/
structure Follows (history : History) (flags : FlagsPwm) (index : UInt8) : Prop where
  quiet : history.commands index = none → flags.isActive index.toNat = false
  noted : ∀ command, history.commands index = some command →
    flags.time index.toNat = millis command.nowMs ∧ flags.timeLimit index.toNat = command.time ∧
      command.time.toNat < 2 ^ 31
  holds : ∀ command, history.commands index = some command →
    (flags.isActive index.toNat = true ↔
      ∀ checked, history.lastCheck = some checked →
        checked ≤ command.nowMs + command.time.toNat)
  value : ∀ command, history.commands index = some command →
    flags.isActive index.toNat = true →
      flags.pwmValues index.toNat = saturate command.value.toInt

/-- What is remembered is of the past, and the next check has to come soon after all of it. -/
structure Dated (history : History) : Prop where
  checked : ∀ checked, history.lastCheck = some checked →
    checked ≤ history.clock ∧ checked ∈ history.anchors
  commanded : ∀ index command, history.commands index = some command →
    command.nowMs ≤ history.clock ∧
      (command.nowMs ∈ history.anchors ∨
        ∃ checked, history.lastCheck = some checked ∧ command.nowMs ≤ checked)

private theorem dated_next {history : History} {event : Event} (dated : Dated history)
    (paces : Paces history event) : Dated (history.next event) := by
  obtain ⟨onward, -⟩ := paces
  cases event with
  | setValue nowMs index value time =>
    refine ⟨fun checked last => ?_, fun other command given => ?_⟩
    · obtain ⟨past, anchored⟩ := dated.checked checked last
      exact ⟨Nat.le_trans past onward, List.mem_append_left _ anchored⟩
    · by_cases same : other = index
      · subst same
        cases (Function.update_self ..).symm.trans given
        exact ⟨Nat.le_refl _, .inl (List.mem_append_right _ List.mem_cons_self)⟩
      · have before := (Function.update_of_ne same ..).symm.trans given
        obtain ⟨past, anchored⟩ := dated.commanded other command before
        exact ⟨Nat.le_trans past onward, anchored.imp_left (List.mem_append_left _)⟩
  | getValue nowMs index =>
    refine ⟨fun checked last => ?_, fun other command given => ?_⟩
    · obtain ⟨past, anchored⟩ := dated.checked checked last
      exact ⟨Nat.le_trans past onward, anchored⟩
    · obtain ⟨past, anchored⟩ := dated.commanded other command given
      exact ⟨Nat.le_trans past onward, anchored⟩
  | check nowMs =>
    refine ⟨fun checked last => ?_, fun other command given => ?_⟩
    · cases last
      exact ⟨Nat.le_refl _, List.mem_cons_self⟩
    · obtain ⟨past, -⟩ := dated.commanded other command given
      exact ⟨Nat.le_trans past onward, .inr ⟨nowMs, rfl, Nat.le_trans past onward⟩⟩

/-- At a check, the age of a command whose flag is still up has not wrapped. -/
theorem overdue_iff {history : History} {flags : FlagsPwm} {index : UInt8} {nowMs : Nat}
    (dated : Dated history) (follows : Follows history flags index)
    (paces : Paces history (.check nowMs)) {command : Command}
    (given : history.commands index = some command)
    (active : flags.isActive index.toNat = true) :
    flags.Overdue (millis nowMs) index.toNat ↔
      command.nowMs + command.time.toNat < nowMs := by
  obtain ⟨onward, soon⟩ := paces
  obtain ⟨time, limit, short⟩ := follows.noted command given
  obtain ⟨past, anchored⟩ := dated.commanded index command given
  have before : command.nowMs ≤ nowMs := Nat.le_trans past onward
  have age : nowMs - command.nowMs < 2 ^ 32 := by
    obtain anchored | ⟨checked, last, after⟩ := anchored
    · have := soon _ anchored
      omega
    · have := soon _ (dated.checked checked last).2
      have := (follows.holds command given).mp active checked last
      omega
  rw [FlagsBase.Overdue, time, limit, gt_iff_lt, UInt32.lt_iff_toNat_lt, millis_sub before age]
  omega

private theorem follows_next {history : History} {flags next : FlagsPwm} {event : Event}
    {index : UInt8} (valid : isValidIndex index = true) (dated : Dated history)
    (follows : Follows history flags index) (paces : Paces history event)
    (stepped : step flags event = some next) : Follows (history.next event) next index := by
  have within := within_of_valid valid
  cases event with
  | setValue nowMs set value time =>
    cases stepped
    unfold FlagsPwm.setValue
    split
    · rename_i invalid
      have other : index ≠ set := fun same => by simp [← same, valid] at invalid
      have before : (history.next (.setValue nowMs set value time)).commands index =
          history.commands index := Function.update_of_ne other ..
      exact ⟨fun none => follows.quiet (before.symm.trans none),
        fun command given => follows.noted command (before.symm.trans given),
        fun command given => follows.holds command (before.symm.trans given),
        fun command given => follows.value command (before.symm.trans given)⟩
    rename_i legal
    have setWithin := within_of_valid (by simpa using legal)
    have active := FlagsBase.isActive_setFlag flags.toFlagsBase nowMs setWithin time index.toNat
    by_cases same : index = set
    · subst same
      have given : (history.next (.setValue nowMs index value time)).commands index =
          some ⟨nowMs, value, time⟩ := Function.update_self ..
      simp only [decide_true, Bool.or_true] at active
      refine ⟨fun none => ?_, fun command known => ?_, fun command known => ?_,
        fun command known _ => ?_⟩
      · cases given.symm.trans none
      · cases given.symm.trans known
        exact ⟨Function.update_self .., Function.update_self .., paces.2⟩
      · cases given.symm.trans known
        refine iff_of_true active fun checked last => ?_
        have := (dated.checked checked last).1
        have := paces.1
        simp only [Event.nowMs] at *
        omega
      · cases given.symm.trans known
        exact Function.update_self ..
    · have apart := toNat_ne same
      have before : (history.next (.setValue nowMs set value time)).commands index =
          history.commands index := Function.update_of_ne same ..
      simp only [apart, decide_false, Bool.or_false] at active
      refine ⟨fun none => ?_, fun command known => ?_, fun command known => ?_,
        fun command known up => ?_⟩
      · exact active.trans (follows.quiet (before.symm.trans none))
      · obtain ⟨noted, limit, short⟩ := follows.noted command (before.symm.trans known)
        exact ⟨(Function.update_of_ne apart ..).trans noted,
          (Function.update_of_ne apart ..).trans limit, short⟩
      · rw [active]
        exact follows.holds command (before.symm.trans known)
      · exact (Function.update_of_ne apart ..).trans
          (follows.value command (before.symm.trans known) (active.symm.trans up))
  | getValue nowMs read =>
    cases stepped
    have base := getValue_base flags read
    refine ⟨fun none => ?_, fun command known => ?_, fun command known => ?_,
      fun command known up => ?_⟩
    · rw [base]
      exact follows.quiet none
    · rw [base]
      exact follows.noted command known
    · rw [base]
      exact follows.holds command known
    · rw [base] at up
      have value := follows.value command known up
      unfold FlagsPwm.getValue
      split
      · exact value
      · by_cases same : index = read
        · subst same
          simp [up, value]
        · exact (Function.update_of_ne (toNat_ne same) ..).trans value
  | check nowMs =>
    cases stepped
    obtain ⟨time, limit, active⟩ :=
      FlagsBase.checkFlagsDuration_spec flags.toFlagsBase nowMs
    refine ⟨fun none => ?_, fun command known => ?_, fun command known => ?_,
      fun command known up => ?_⟩
    · exact Bool.eq_false_iff.mpr fun up =>
        absurd ((active _).mp up).1 (Bool.eq_false_iff.mp (follows.quiet none))
    · obtain ⟨noted, limited, short⟩ := follows.noted command known
      exact ⟨(congrFun time _).trans noted, (congrFun limit _).trans limited, short⟩
    · apply (active _).trans
      constructor
      · rintro ⟨up, fresh⟩ checked last
        cases last
        have late := (overdue_iff dated follows paces known up).not.mp fun overdue =>
          fresh ⟨within, overdue⟩
        exact Nat.not_lt.mp late
      · intro early
        have bound := early nowMs rfl
        have up : flags.isActive index.toNat = true :=
          (follows.holds command known).mpr fun checked last =>
            Nat.le_trans (Nat.le_trans (dated.checked checked last).1 paces.1) bound
        exact ⟨up, fun overdue => absurd ((overdue_iff dated follows paces known up).mp overdue.2)
          (Nat.not_lt.mpr bound)⟩
    · exact follows.value command known ((active _).mp up).1

private theorem follows_run {events : List Event} {history : History} {flags last : FlagsPwm}
    {index : UInt8} (valid : isValidIndex index = true) (dated : Dated history)
    (follows : Follows history flags index) (paced : Paced history events)
    (ran : run step flags events = some last) :
    Follows (events.foldl History.next history) last index := by
  induction events generalizing history flags with
  | nil =>
    cases ran
    exact follows
  | cons event rest ih =>
    obtain ⟨next, stepped, ran⟩ := run_cons.mp ran
    obtain ⟨paces, paced⟩ := paced
    exact ih (dated_next dated paces) (follows_next valid dated follows paces stepped) paced ran

private theorem dated_initial : Dated {} where
  checked := nofun
  commanded := nofun

private theorem follows_initial (index : UInt8) : Follows {} {} index where
  quiet _ := by simp [FlagsBase.isActive_eq]
  noted := nofun
  holds := nofun
  value := nofun

/-- What is read of an index after the last check: the last command for it as far as it lasts,
and nothing else. -/
structure DeadMan (history : History) (flags : FlagsPwm) (checked : Nat) : Prop where
  commanded : ∀ index, (flags.getValue index).1 ≠ 0 → ∃ command,
    history.commands index = some command ∧ command.value ≠ 0 ∧
      checked ≤ command.nowMs + command.time.toNat ∧
      (flags.getValue index).1 = saturate command.value.toInt
  lasting : ∀ index command, isValidIndex index = true → history.commands index = some command →
    checked ≤ command.nowMs + command.time.toNat →
      (flags.getValue index).1 = saturate command.value.toInt

/-- A call for one index leaves what the others read. -/
structure Apart (flags : FlagsPwm) (index other : UInt8) : Prop where
  set : ∀ nowMs value time,
    ((flags.setValue nowMs index value time).getValue other).1 = (flags.getValue other).1
  get : ((flags.getValue index).2.getValue other).1 = (flags.getValue other).1

/-- Disarmed motors are told to stand, and a coast goes out only between two zero commands. -/
structure Gated (robot : Robot) (nowMs : Nat) : Prop where
  disarmed : robot.armed = false → (setOutputs robot nowMs).1 = .pwm 0 0
  coasts : (setOutputs robot nowMs).1 = .coast →
    (robot.motors.getValue motorLeft).1 = 0 ∧ (robot.motors.getValue motorRight).1 = 0

private theorem deadMan_of_follows {history : History} {flags : FlagsPwm} {checked : Nat}
    (last : history.lastCheck = some checked)
    (follows : ∀ index, isValidIndex index = true → Follows history flags index) :
    DeadMan history flags checked := by
  refine ⟨fun index moves => ?_, fun index command valid given early => ?_⟩
  · rw [getValue_fst] at moves ⊢
    split at moves
    · rename_i both
      obtain ⟨valid, up⟩ := both
      cases given : history.commands index with
      | none => exact absurd up (Bool.eq_false_iff.mp ((follows index valid).quiet given))
      | some command =>
        have value := (follows index valid).value command given up
        refine ⟨command, rfl, ?_,
          ((follows index valid).holds command given).mp up checked last, ?_⟩
        · rintro zero
          rw [value, zero] at moves
          exact moves rfl
        · rw [if_pos ⟨valid, up⟩, value]
    · exact absurd rfl moves
  · have up : flags.isActive index.toNat = true := by
      refine ((follows index valid).holds command given).mpr fun other same => ?_
      cases last.symm.trans same
      exact early
    rw [getValue_fst, if_pos ⟨valid, up⟩]
    exact (follows index valid).value command given up

private theorem gated (robot : Robot) (nowMs : Nat) : Gated robot nowMs := by
  have other : motorRight ≠ motorLeft := by decide
  have right := getValue_getValue_other robot.motors other
  constructor
  · intro disarmed
    simp [setOutputs, disarmed]
  · intro coasts
    rw [← right]
    simp only [setOutputs] at coasts
    cases armed : robot.armed with
    | false => simp [armed] at coasts
    | true =>
      simp only [armed, Bool.not_true, Bool.false_eq_true, if_false] at coasts
      by_cases still : robot.coastUntil ≠ 0 ∧ (robot.motors.getValue motorLeft).1 = 0 ∧
          ((robot.motors.getValue motorLeft).2.getValue motorRight).1 = 0
      · exact still.2
      · simp [if_neg still] at coasts

/-- After a check a motor is told to move only by its last command, while that lasts; no index
disturbs another; and arming and coasting stand over all of it. -/
theorem motors_dead_man :
    (∀ events flags checked, Paced {} events → run step {} events = some flags →
      (record events).lastCheck = some checked → DeadMan (record events) flags checked) ∧
    (∀ flags index other, other ≠ index → Apart flags index other) ∧
    ∀ robot nowMs, Gated robot nowMs :=
  ⟨fun _ _ _ paced ran last => deadMan_of_follows last fun index valid =>
    follows_run valid dated_initial (follows_initial index) paced ran,
    fun flags _ _ differ => ⟨fun nowMs value time =>
      getValue_setValue_other flags nowMs differ value time, getValue_getValue_other flags differ⟩,
    gated⟩

private def commanded : List Event :=
  [.setValue 4294967290 motorLeft (-120) 100, .check 4294967390, .getValue 4294967390 motorLeft]

theorem motors_dead_man_across_wrap :
    ∃ flags, run step {} commanded = some flags ∧
      DeadMan (record commanded) flags 4294967390 := by
  have ran : ∃ flags, run step {} commanded = some flags := ⟨_, rfl⟩
  obtain ⟨flags, ran⟩ := ran
  refine ⟨flags, ran, motors_dead_man.1 commanded flags 4294967390 ?_ ran rfl⟩
  simp [commanded, Paced, Paces, History.next, Event.nowMs]

end BallyOS.Flags
