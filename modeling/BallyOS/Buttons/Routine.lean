import BallyOS.Flags.Flags
import BallyOS.Library.Run

/-! A button from its pin to the state machine. Every edge interrupts; the ones
that are a press raise the button's flag, each pass of the routine drops the
flags that have stood too long, and now and then it hands the flags on. The
interrupts are served where the routine runs, so they fall between any two of
its accesses to the flags. -/
namespace BallyOS.Buttons
open Library Flags

/-- `Flags_in::setFlag`, which leaves the limit as it was set for all. -/
def setFlag (flags : FlagsBase) (nowMs : Nat) (index : Nat) : FlagsBase :=
  { flags with
    allFlags := flags.allFlags ||| (1#8 <<< index)
    time := Function.update flags.time index (millis nowMs) }

/-- What `refreshFlags` does next about a flag. It drops one with a load of all the flags and
a store. -/
inductive Access
  | test
  | age
  | load
  | store (allFlags : BitVec 8)
deriving Repr, DecidableEq

/-- Where the routine is in its pass, of what the buttons take part in. -/
inductive Pass
  | idle
  | refreshing (currentTime : UInt32) (index : Nat) (access : Access)
  | refreshed
  | due
  | asking
deriving Repr, DecidableEq

/-- The loop of `refreshFlags` goes on. -/
def nextFlag (currentTime : UInt32) (index : Nat) : Pass :=
  if index + 1 < kMaxFlags then .refreshing currentTime (index + 1) .test else .refreshed

/-- One access of `refreshFlags`. -/
def refresh (flags : FlagsBase) (currentTime : UInt32) (index : Nat) :
    Access → FlagsBase × Pass
  | .test =>
    (flags, if flags.isActive index then .refreshing currentTime index .age
      else nextFlag currentTime index)
  | .age =>
    (flags, if currentTime - flags.time index > flags.timeLimit index then
        .refreshing currentTime index .load
      else nextFlag currentTime index)
  | .load => (flags, .refreshing currentTime index (.store flags.allFlags))
  | .store allFlags =>
    ({ flags with allFlags := allFlags &&& ~~~(1#8 <<< index) }, nextFlag currentTime index)

/-- The times from `clockUs` on and the count of questions are ghosts: when each button was
pressed last, the clock was read for the flags and for the state machine, and its timer was
set; and in how many calls of `next` since the press its flag was up. -/
structure System where
  lastEdgeUs : Fin 3 → Int
  buttons : FlagsBase
  stateMachineTimer : UInt32
  pass : Pass
  clockUs : Nat
  pressedMs : Fin 3 → Option Nat
  refreshedMs : Nat
  checkedMs : Nat
  questionedMs : Nat
  asked : Fin 3 → Nat

/-- A level is `true` where the pin is high, that is, the button up. An interrupt reads the
clock for the edge, and once more for the flag. -/
inductive Event
  | edge (button : Fin 3) (level : Bool) (nowUs setUs : Nat)
  | checkFlagsDuration (nowUs : Nat)
  | refreshFlags
  | checkStateMachine (nowUs : Nat)
  | next
  | setTimer (nowUs : Nat)
deriving Repr, DecidableEq

/-- When the interrupts are set up. -/
def System.start (delayFlags : UInt32) (nowUs : Nat) : System where
  lastEdgeUs := fun _ => nowUs
  buttons := { timeLimit := fun _ => delayFlags }
  stateMachineTimer := 0
  pass := .idle
  clockUs := nowUs
  pressedMs := fun _ => none
  refreshedMs := 0
  checkedMs := 0
  questionedMs := 0
  asked := fun _ => 0

/-- `esp_timer_get_time() / 1000`. -/
def ms (nowUs : Nat) : Nat := nowUs / 1000

section

variable (delayFlags : UInt32)

/-- Half of `delay_flags`. -/
def debounceUs : Int := delayFlags.toNat * 1000 / 2

/-- Only a falling edge after a quiet window is a press. -/
def pressAccepted (system : System) (button : Fin 3) (level : Bool) (nowUs : Nat) : Prop :=
  level = false ∧ debounceUs delayFlags ≤ nowUs - system.lastEdgeUs button

instance (system : System) (button : Fin 3) (level : Bool) (nowUs : Nat) :
    Decidable (pressAccepted delayFlags system button level nowUs) :=
  inferInstanceAs (Decidable (_ ∧ _))

def System.stamp (system : System) (button : Fin 3) (nowUs : Nat) : System :=
  { system with
    clockUs := nowUs
    lastEdgeUs := Function.update system.lastEdgeUs button nowUs }

def System.press (system : System) (button : Fin 3) (nowUs : Nat) : System :=
  { system with
    clockUs := nowUs
    buttons := setFlag system.buttons (ms nowUs) button
    pressedMs := Function.update system.pressedMs button (some (ms nowUs))
    asked := Function.update system.asked button 0 }

def step : Machine System Event := fun system event =>
  match event with
  | .edge button level nowUs setUs =>
    let stamped := system.stamp button nowUs
    some (if pressAccepted delayFlags system button level nowUs then stamped.press button setUs
      else stamped)
  | .checkFlagsDuration nowUs =>
    if system.pass = .idle then
      some { system with
        clockUs := nowUs
        pass := .refreshing (millis (ms nowUs)) 0 .test
        refreshedMs := ms nowUs }
    else none
  | .refreshFlags =>
    match system.pass with
    | .refreshing currentTime index access =>
      let (buttons, pass) := refresh system.buttons currentTime index access
      some { system with buttons := buttons, pass := pass }
    | .idle | .refreshed | .due | .asking => none
  | .checkStateMachine nowUs =>
    if system.pass = .refreshed then
      some { system with
        clockUs := nowUs
        pass := if millis (ms nowUs) - system.stateMachineTimer > delayFlags then .due else .idle
        checkedMs := ms nowUs }
    else none
  | .next =>
    if system.pass = .due then
      some { system with
        pass := .asking
        asked := fun button =>
          if system.buttons.isActive button then system.asked button + 1 else system.asked button }
    else none
  | .setTimer nowUs =>
    if system.pass = .asking then
      some { system with
        clockUs := nowUs
        stateMachineTimer := millis (ms nowUs)
        pass := .idle
        checkedMs := ms nowUs
        questionedMs := ms nowUs }
    else none

end

/-- Everything a step does, and where the pass has to be for it. -/
def Moves (delayFlags : UInt32) (system next : System) : Event → Prop
  | .edge button level nowUs setUs =>
    next = if pressAccepted delayFlags system button level nowUs then
        (system.stamp button nowUs).press button setUs
      else system.stamp button nowUs
  | .checkFlagsDuration nowUs => system.pass = .idle ∧
    next = { system with
      clockUs := nowUs
      pass := .refreshing (millis (ms nowUs)) 0 .test
      refreshedMs := ms nowUs }
  | .refreshFlags => ∃ currentTime index access,
    system.pass = .refreshing currentTime index access ∧
    next = { system with
      buttons := (refresh system.buttons currentTime index access).1
      pass := (refresh system.buttons currentTime index access).2 }
  | .checkStateMachine nowUs => system.pass = .refreshed ∧
    next = { system with
      clockUs := nowUs
      pass := if millis (ms nowUs) - system.stateMachineTimer > delayFlags then .due else .idle
      checkedMs := ms nowUs }
  | .next => system.pass = .due ∧
    next = { system with
      pass := .asking
      asked := fun button =>
        if system.buttons.isActive button then system.asked button + 1 else system.asked button }
  | .setTimer nowUs => system.pass = .asking ∧
    next = { system with
      clockUs := nowUs
      stateMachineTimer := millis (ms nowUs)
      pass := .idle
      checkedMs := ms nowUs
      questionedMs := ms nowUs }

theorem moves_of_step {delayFlags : UInt32} {system next : System} {event : Event}
    (stepped : step delayFlags system event = some next) :
    Moves delayFlags system next event := by
  cases event with
  | edge button level nowUs setUs => exact (Option.some.inj stepped).symm
  | refreshFlags =>
    simp only [step] at stepped
    split at stepped
    · rename_i here
      exact ⟨_, _, _, here, (Option.some.inj stepped).symm⟩
    all_goals cases stepped
  | checkFlagsDuration nowUs | checkStateMachine nowUs | next | setTimer nowUs =>
    simp only [step] at stepped
    split at stepped
    · rename_i here
      exact ⟨here, (Option.some.inj stepped).symm⟩
    · cases stepped

/-- Time goes on, and no two passes are half a wrap of the clock apart. -/
def Paced (system : System) : Event → Prop
  | .edge _ _ nowUs setUs => system.clockUs ≤ nowUs ∧ nowUs ≤ setUs
  | .setTimer nowUs => system.clockUs ≤ nowUs
  | .checkFlagsDuration nowUs =>
    system.clockUs ≤ nowUs ∧ ms nowUs - system.refreshedMs < 2 ^ 31
  | .checkStateMachine nowUs => system.clockUs ≤ nowUs ∧ ms nowUs - system.checkedMs < 2 ^ 31
  | .refreshFlags | .next => True

instance (system : System) (event : Event) : Decidable (Paced system event) :=
  match event with
  | .setTimer _ => inferInstanceAs (Decidable (_ ≤ _))
  | .edge .. | .checkFlagsDuration _ | .checkStateMachine _ =>
    inferInstanceAs (Decidable (_ ∧ _))
  | .refreshFlags | .next => isTrue trivial

theorem ms_le {earlier later : Nat} (onward : earlier ≤ later) : ms earlier ≤ ms later :=
  Nat.div_le_div_right onward

/-! ### The loop over the flags -/

/-- A refresh is under way that has not settled the flag. -/
def Pass.Unsettled (index : Nat) : Pass → Prop
  | .refreshing _ current _ => current ≤ index
  | .idle | .refreshed | .due | .asking => False

private theorem nextFlag_settled {currentTime : UInt32} {index other : Nat}
    (within : other < kMaxFlags)
    (settled : ¬ (nextFlag currentTime index).Unsettled other) : other ≤ index := by
  unfold nextFlag at settled
  split at settled
  · simp only [Pass.Unsettled] at settled
    omega
  · omega

/-- The loop goes by with a flag that is not touched until the loop is at it. -/
theorem settled_or {index other : Nat} {currentTime : UInt32} (access : Access)
    (within : other < kMaxFlags) (settled : ¬ (nextFlag currentTime index).Unsettled other) :
    other = index ∨ ¬ (Pass.refreshing currentTime index access).Unsettled other := by
  have passed := nextFlag_settled within settled
  simp only [Pass.Unsettled]
  omega

/-- What a refresh under way holds of the clock and of the flags. -/
def System.Loaded (system : System) : Prop :=
  match system.pass with
  | .refreshing currentTime _ access => currentTime = millis system.refreshedMs ∧
      ∀ allFlags, access = .store allFlags → ∀ index, allFlags.getLsbD index = true →
        system.buttons.isActive index = true
  | .idle | .refreshed | .due | .asking => True

/-- Which of the clock's readings is behind which, by where the pass is. -/
def System.Ordered (delayFlags : UInt32) (system : System) : Prop :=
  match system.pass with
  | .idle => system.questionedMs ≤ system.checkedMs ∧ system.refreshedMs ≤ system.checkedMs ∧
      system.checkedMs ≤ system.questionedMs + delayFlags.toNat
  | .refreshing .. | .refreshed => system.questionedMs ≤ system.checkedMs ∧
      system.checkedMs ≤ system.refreshedMs ∧
      system.checkedMs ≤ system.questionedMs + delayFlags.toNat
  | .due | .asking => system.questionedMs ≤ system.refreshedMs ∧
      system.refreshedMs ≤ system.checkedMs ∧
      system.questionedMs + delayFlags.toNat < system.checkedMs

/-- A flag that is up was raised by the last press, and the last refresh that settled it did not
come too late for it. -/
structure Tracks (delayFlags : UInt32) (system : System) : Prop where
  limits : ∀ index, system.buttons.timeLimit index = delayFlags
  raised : ∀ button : Fin 3, system.buttons.isActive button = true →
    ∃ pressed, system.pressedMs button = some pressed ∧
      system.refreshedMs < pressed + 2 ^ 32 ∧
      (¬ system.pass.Unsettled button → system.refreshedMs ≤ pressed + delayFlags.toNat)
  noted : ∀ button pressed, system.pressedMs button = some pressed →
    system.buttons.time button = millis pressed ∧ pressed ≤ ms system.clockUs
  timer : system.stateMachineTimer = millis system.questionedMs
  clock : system.refreshedMs ≤ ms system.clockUs ∧ system.checkedMs ≤ ms system.clockUs
  loaded : system.Loaded
  ordered : system.Ordered delayFlags

theorem tracks_start (delayFlags : UInt32) (nowUs : Nat) :
    Tracks delayFlags (.start delayFlags nowUs) where
  limits _ := rfl
  raised button up := by simp [System.start, FlagsBase.isActive] at up
  noted _ _ pressed := by cases pressed
  timer := rfl
  clock := ⟨Nat.zero_le _, Nat.zero_le _⟩
  loaded := trivial
  ordered := ⟨Nat.le_refl _, Nat.le_refl _, Nat.zero_le _⟩

/-! ### An interrupt -/

private theorem setFlag_eq (flags : FlagsBase) (nowMs index : Nat) :
    setFlag flags nowMs index = flags.setFlag nowMs index (flags.timeLimit index) := by
  unfold setFlag FlagsBase.setFlag
  rw [Function.update_eq_self]

private theorem button_within (button : Fin 3) : (button : Nat) < kMaxFlags :=
  Nat.lt_of_lt_of_le button.isLt (by decide)

theorem isActive_press (system : System) (button : Fin 3) (nowUs index : Nat) :
    (system.press button nowUs).buttons.isActive index = true ↔
      system.buttons.isActive index = true ∨ index = button := by
  have active := FlagsBase.isActive_setFlag system.buttons (ms nowUs) (button_within button)
    (system.buttons.timeLimit button) index
  simp only [System.press, setFlag_eq, active, Bool.or_eq_true, decide_eq_true_eq]

private theorem tracks_stamp {delayFlags : UInt32} {system : System}
    (tracks : Tracks delayFlags system)
    {nowUs : Nat} (onward : system.clockUs ≤ nowUs) (button : Fin 3) :
    Tracks delayFlags (system.stamp button nowUs) := by
  have later := ms_le onward
  obtain ⟨refreshed, checked⟩ := tracks.clock
  exact ⟨tracks.limits, tracks.raised, fun button pressed given =>
    ⟨(tracks.noted button pressed given).1,
      Nat.le_trans (tracks.noted button pressed given).2 later⟩, tracks.timer,
    ⟨Nat.le_trans refreshed later, Nat.le_trans checked later⟩, tracks.loaded, tracks.ordered⟩

/-- An interrupt may come at any access: it only raises flags, so what a refresh has loaded of
them is still up. -/
theorem tracks_press {delayFlags : UInt32} {system : System} (tracks : Tracks delayFlags system)
    {nowUs : Nat} (onward : system.clockUs ≤ nowUs) (button : Fin 3) :
    Tracks delayFlags (system.press button nowUs) := by
  have later := ms_le onward
  obtain ⟨refreshed, checked⟩ := tracks.clock
  refine ⟨tracks.limits, fun other up => ?_, fun other pressed given => ?_, tracks.timer,
    ⟨Nat.le_trans refreshed later, Nat.le_trans checked later⟩, ?_, tracks.ordered⟩
  · by_cases same : other = button
    · subst same
      refine ⟨ms nowUs, Function.update_self .., ?_, fun _ => ?_⟩
      · simp only [System.press]
        omega
      · simp only [System.press]
        omega
    · have before := ((isActive_press system button nowUs other).mp up).resolve_right
        fun equal => same (Fin.ext equal)
      simpa only [System.press, Function.update_of_ne same] using tracks.raised other before
  · simp only [System.press, setFlag] at given ⊢
    by_cases same : other = button
    · subst same
      rw [Function.update_self] at given ⊢
      cases given
      exact ⟨rfl, Nat.le_refl _⟩
    · have apart : ¬ (other : Nat) = button := fun equal => same (Fin.ext equal)
      rw [Function.update_of_ne same] at given
      rw [Function.update_of_ne apart]
      exact ⟨(tracks.noted other pressed given).1,
        Nat.le_trans (tracks.noted other pressed given).2 later⟩
  · have loaded := tracks.loaded
    unfold System.Loaded at loaded ⊢
    simp only [System.press] at loaded ⊢
    split at loaded
    · obtain ⟨current, kept⟩ := loaded
      exact ⟨current, fun allFlags held index set =>
        (isActive_press system button nowUs index).mpr (.inl (kept allFlags held index set))⟩
    all_goals trivial

/-! ### A refresh -/

private theorem tracks_readClock {delayFlags : UInt32} (small : delayFlags.toNat < 2 ^ 31)
    {system : System} (tracks : Tracks delayFlags system) {nowUs : Nat}
    (idle : system.pass = .idle) (onward : system.clockUs ≤ nowUs)
    (near : ms nowUs - system.refreshedMs < 2 ^ 31) :
    Tracks delayFlags { system with
      clockUs := nowUs
      pass := .refreshing (millis (ms nowUs)) 0 .test
      refreshedMs := ms nowUs } := by
  have later := ms_le onward
  obtain ⟨limits, raised, noted, timer, ⟨refreshed, checked⟩, -, ordered⟩ := tracks
  rw [System.Ordered, idle] at ordered
  refine ⟨limits, fun button up => ?_, fun button pressed given =>
    ⟨(noted button pressed given).1, Nat.le_trans (noted button pressed given).2 later⟩, timer,
    ⟨Nat.le_refl _, Nat.le_trans checked later⟩, ⟨rfl, nofun⟩,
    ⟨ordered.1, Nat.le_trans checked later, ordered.2.2⟩⟩
  obtain ⟨pressed, given, -, fresh⟩ := raised button up
  have soon := fresh (by rw [idle]; exact id)
  exact ⟨pressed, given, by dsimp only; omega, fun settled => absurd (Nat.zero_le _) settled⟩

/-- The loop goes on from a flag that is down, or that the refresh is not too late for. -/
theorem tracks_nextFlag {delayFlags : UInt32} {system : System} {buttons : FlagsBase}
    (tracks : Tracks delayFlags system)
    (here : system.pass = .refreshing currentTime index access)
    (same : buttons.time = system.buttons.time ∧ buttons.timeLimit = system.buttons.timeLimit)
    (fewer : ∀ other, buttons.isActive other = true → system.buttons.isActive other = true)
    (fresh : ∀ button : Fin 3, (button : Nat) = index → buttons.isActive button = true →
      ∀ pressed, system.pressedMs button = some pressed → system.refreshedMs < pressed + 2 ^ 32 →
        system.refreshedMs ≤ pressed + delayFlags.toNat) :
    Tracks delayFlags { system with buttons := buttons, pass := nextFlag currentTime index } := by
  obtain ⟨limits, raised, noted, timer, clock, loaded, ordered⟩ := tracks
  rw [System.Loaded, here] at loaded
  rw [System.Ordered, here] at ordered
  refine ⟨fun other => ?_, fun button up => ?_, fun button pressed given => ?_, timer, clock,
    ?_, ?_⟩
  · dsimp only
    rw [same.2]
    exact limits other
  · obtain ⟨pressed, given, near, before⟩ := raised button (fewer button up)
    refine ⟨pressed, given, near, fun settled => ?_⟩
    obtain at_ | behind := settled_or access (button_within button) settled
    · exact fresh button at_ up pressed given near
    · exact before (here ▸ behind)
  · dsimp only
    rw [same.1]
    exact noted button pressed given
  · by_cases further : index + 1 < kMaxFlags
    · simp only [System.Loaded, nextFlag, if_pos further]
      exact ⟨loaded.1, nofun⟩
    · simp only [System.Loaded, nextFlag, if_neg further]
  · by_cases further : index + 1 < kMaxFlags
    · simp only [System.Ordered, nextFlag, if_pos further]
      exact ordered
    · simp only [System.Ordered, nextFlag, if_neg further]
      exact ordered

/-- The loop stays at its flag. -/
theorem tracks_sameFlag {delayFlags : UInt32} {system : System}
    (tracks : Tracks delayFlags system)
    (here : system.pass = .refreshing currentTime index access)
    (held : ∀ allFlags, next = .store allFlags → allFlags = system.buttons.allFlags) :
    Tracks delayFlags { system with pass := .refreshing currentTime index next } := by
  obtain ⟨limits, raised, noted, timer, clock, loaded, ordered⟩ := tracks
  rw [System.Loaded, here] at loaded
  rw [System.Ordered, here] at ordered
  rw [here] at raised
  refine ⟨limits, raised, noted, timer, clock, ⟨loaded.1, fun allFlags same other set => ?_⟩,
    ordered⟩
  rw [FlagsBase.isActive_eq, ← held allFlags same]
  exact set

/-- Whatever an interrupt has done to the flags since the refresh read the clock, the loop leaves
up only what it is not too late for. -/
theorem tracks_refresh {delayFlags : UInt32} {system : System}
    (tracks : Tracks delayFlags system)
    (here : system.pass = .refreshing currentTime index access) :
    Tracks delayFlags { system with
      buttons := (refresh system.buttons currentTime index access).1
      pass := (refresh system.buttons currentTime index access).2 } := by
  have loaded := tracks.loaded
  rw [System.Loaded, here] at loaded
  cases access with
  | test =>
    simp only [refresh]
    split
    · exact tracks_sameFlag tracks here nofun
    · rename_i down
      exact tracks_nextFlag tracks here ⟨rfl, rfl⟩ (fun _ => id)
        fun button same up => absurd (same ▸ up) down
  | age =>
    simp only [refresh]
    split
    · exact tracks_sameFlag tracks here nofun
    · rename_i young
      refine tracks_nextFlag tracks here ⟨rfl, rfl⟩ (fun _ => id)
        fun button same _ pressed given near => ?_
      rw [← same, (tracks.noted button pressed given).1, tracks.limits, loaded.1, gt_iff_lt,
        UInt32.lt_iff_toNat_lt] at young
      by_cases before : pressed ≤ system.refreshedMs
      · rw [millis_sub before (by omega)] at young
        omega
      · omega
  | load => exact tracks_sameFlag tracks here fun _ same => (Access.store.inj same).symm
  | store allFlags =>
    have cleared := FlagsBase.isActive_cleared { system.buttons with allFlags := allFlags } index
    have kept : ∀ other, FlagsBase.isActive { system.buttons with allFlags := allFlags } other =
        true → system.buttons.isActive other = true := by
      intro other set
      rw [FlagsBase.isActive_eq] at set
      exact loaded.2 allFlags rfl other set
    exact tracks_nextFlag tracks here ⟨rfl, rfl⟩
      (fun other up => kept other ((cleared other).mp up).1)
      fun button same up => absurd same ((cleared button).mp up).2

/-- Whether the machine is asked is whether the limit went by since the timer was set. -/
theorem tracks_check {delayFlags : UInt32} (small : delayFlags.toNat < 2 ^ 31) {system : System}
    (tracks : Tracks delayFlags system) {nowUs : Nat} (refreshed : system.pass = .refreshed)
    (onward : system.clockUs ≤ nowUs) (near : ms nowUs - system.checkedMs < 2 ^ 31) :
    Tracks delayFlags { system with
      clockUs := nowUs
      pass := if millis (ms nowUs) - system.stateMachineTimer > delayFlags then .due else .idle
      checkedMs := ms nowUs } := by
  have later := ms_le onward
  obtain ⟨limits, raised, noted, timer, ⟨before, checked⟩, -, ordered⟩ := tracks
  rw [System.Ordered, refreshed] at ordered
  obtain ⟨asked, since, near'⟩ := ordered
  have late : millis (ms nowUs) - system.stateMachineTimer > delayFlags ↔
      system.questionedMs + delayFlags.toNat < ms nowUs := by
    rw [timer, gt_iff_lt, UInt32.lt_iff_toNat_lt, millis_sub (by omega) (by omega)]
    omega
  refine ⟨limits, fun button up => ?_, fun button pressed given =>
    ⟨(noted button pressed given).1, Nat.le_trans (noted button pressed given).2 later⟩, timer,
    ⟨Nat.le_trans before later, Nat.le_refl _⟩, ?_, ?_⟩
  · obtain ⟨pressed, given, near, fresh⟩ := raised button up
    exact ⟨pressed, given, near, fun _ => fresh (by rw [refreshed]; exact id)⟩
  · by_cases due : millis (ms nowUs) - system.stateMachineTimer > delayFlags
    · simp only [System.Loaded, if_pos due]
    · simp only [System.Loaded, if_neg due]
  · by_cases due : millis (ms nowUs) - system.stateMachineTimer > delayFlags
    · simp only [if_pos due, System.Ordered]
      have := late.mp due
      omega
    · simp only [if_neg due, System.Ordered]
      have := mt late.mpr due
      omega

theorem tracks_step {delayFlags : UInt32} (small : delayFlags.toNat < 2 ^ 31)
    {system next : System} {event : Event} (tracks : Tracks delayFlags system)
    (paced : Paced system event) (stepped : step delayFlags system event = some next) :
    Tracks delayFlags next := by
  cases event with
  | edge button level nowUs setUs =>
    obtain rfl := moves_of_step stepped
    have stamped := tracks_stamp tracks paced.1 button
    split
    · exact tracks_press stamped paced.2 button
    · exact stamped
  | checkFlagsDuration nowUs =>
    obtain ⟨idle, rfl⟩ := moves_of_step stepped
    exact tracks_readClock small tracks idle paced.1 paced.2
  | refreshFlags =>
    obtain ⟨_, _, _, here, rfl⟩ := moves_of_step stepped
    exact tracks_refresh tracks here
  | checkStateMachine nowUs =>
    obtain ⟨refreshed, rfl⟩ := moves_of_step stepped
    exact tracks_check small tracks refreshed paced.1 paced.2
  | next =>
    obtain ⟨due, rfl⟩ := moves_of_step stepped
    obtain ⟨limits, raised, noted, timer, clock, -, ordered⟩ := tracks
    rw [System.Ordered, due] at ordered
    rw [due] at raised
    exact ⟨limits, raised, noted, timer, clock, trivial, ordered⟩
  | setTimer nowUs =>
    obtain ⟨asking, rfl⟩ := moves_of_step stepped
    have later := ms_le paced
    obtain ⟨limits, raised, noted, timer, ⟨refreshed, checked⟩, -, ordered⟩ := tracks
    rw [asking] at raised
    exact ⟨limits, raised, fun button pressed given =>
      ⟨(noted button pressed given).1, Nat.le_trans (noted button pressed given).2 later⟩, rfl,
      ⟨Nat.le_trans refreshed later, Nat.le_refl _⟩, trivial,
      ⟨Nat.le_refl _, Nat.le_trans refreshed later, Nat.le_add_right ..⟩⟩

end BallyOS.Buttons
