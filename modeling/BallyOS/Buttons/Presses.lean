import BallyOS.Buttons.Routine

/-! How often the state machine hears of a press, and of which it never does. -/
namespace BallyOS.Buttons
open Library Flags

/-! ### What runs are spoken of -/

/-- A pass reads the clock for the flags and for the state machine in one millisecond. -/
def Prompt (system : System) : Event → Prop
  | .checkStateMachine nowUs => ms nowUs = system.refreshedMs
  | _ => True

def Pass.isRefreshing : Pass → Bool
  | .refreshing .. => true
  | .idle | .refreshed | .due | .asking => false

/-- A pass begins at most so long after the last one read the clock, and no press falls into
a refresh of the flags, into the end of a question or that close behind it. -/
def Timely (delayFlags : UInt32) (periodMs : Nat) (system : System) : Event → Prop
  | .checkFlagsDuration nowUs => ms nowUs ≤ system.checkedMs + periodMs
  | .edge button level nowUs setUs => pressAccepted delayFlags system button level nowUs →
      system.pass.isRefreshing = false ∧ system.pass ≠ .asking ∧
        system.questionedMs + periodMs ≤ ms setUs
  | _ => True

instance (system : System) (event : Event) : Decidable (Prompt system event) :=
  match event with
  | .checkStateMachine _ => inferInstanceAs (Decidable (_ = _))
  | .edge .. | .checkFlagsDuration _ | .refreshFlags | .next | .setTimer _ => isTrue trivial

instance (delayFlags : UInt32) (periodMs : Nat) (system : System) (event : Event) :
    Decidable (Timely delayFlags periodMs system event) :=
  match event with
  | .checkFlagsDuration _ => inferInstanceAs (Decidable (_ ≤ _))
  | .edge .. => inferInstanceAs (Decidable (_ → _ ∧ _))
  | .refreshFlags | .checkStateMachine _ | .next | .setTimer _ => isTrue trivial

/-! ### Flags that no refresh loses -/

def System.TooLate (delayFlags : UInt32) (system : System) (index : Nat) : Prop :=
  ∀ button : Fin 3, (button : Nat) = index → ∀ pressed, system.pressedMs button = some pressed →
    pressed + delayFlags.toNat < system.refreshedMs

/-- A refresh drops one flag only, and only if it has stood too long. -/
def Access.Sound (flags : FlagsBase) (tooLate : Prop) : Access → Prop
  | .test | .age => True
  | .load => tooLate
  | .store allFlags => allFlags = flags.allFlags ∧ tooLate

/-- The flag of a press is up until a refresh comes too late for it, if no press falls into a
refresh. -/
structure Kept (delayFlags : UInt32) (system : System) : Prop where
  up : ∀ button pressed, system.pressedMs button = some pressed →
    system.refreshedMs ≤ pressed + delayFlags.toNat → system.buttons.isActive button = true
  calm : ∀ currentTime index access, system.pass = .refreshing currentTime index access →
    (∀ button pressed, system.pressedMs button = some pressed → pressed ≤ system.refreshedMs) ∧
      access.Sound system.buttons (system.TooLate delayFlags index)

private theorem kept_start (delayFlags : UInt32) (nowUs : Nat) : Kept delayFlags
    (.start delayFlags nowUs) where
  up _ _ pressed := by cases pressed
  calm := nofun

/-- The clock shows no more than the age of a flag. -/
theorem millis_sub_le {earlier later : Nat} (onward : earlier ≤ later) :
    (millis later - millis earlier).toNat ≤ later - earlier := by
  simp only [millis, UInt32.toNat_sub, UInt32.toNat_ofNat']
  omega

private theorem nextFlag_calm {currentTime : UInt32} {index : Nat}
    (next : nextFlag currentTime index = .refreshing time other access) : access = .test := by
  unfold nextFlag at next
  split at next
  · cases next
    rfl
  · cases next

private theorem kept_press {delayFlags : UInt32} {system : System} (kept : Kept delayFlags system)
    (quiet : system.pass.isRefreshing = false) (button : Fin 3) (nowUs : Nat) :
    Kept delayFlags (system.press button nowUs) where
  up other pressed given fresh := by
    rw [isActive_press]
    by_cases same : other = button
    · exact .inr (congrArg Fin.val same)
    · refine .inl (kept.up other pressed ?_ fresh)
      simpa only [System.press, Function.update_of_ne same] using given
  calm currentTime index access here := by
    rw [show system.pass = .refreshing currentTime index access from here] at quiet
    cases quiet

private theorem kept_refresh {delayFlags : UInt32} {system : System}
    (tracks : Tracks delayFlags system)
    (kept : Kept delayFlags system)
    (here : system.pass = .refreshing currentTime index access) :
    Kept delayFlags { system with
      buttons := (refresh system.buttons currentTime index access).1
      pass := (refresh system.buttons currentTime index access).2 } := by
  obtain ⟨past, sound⟩ := kept.calm _ _ _ here
  have loaded := tracks.loaded
  rw [System.Loaded, here] at loaded
  have passes {buttons : FlagsBase} (up : ∀ button pressed, system.pressedMs button = some pressed →
      system.refreshedMs ≤ pressed + delayFlags.toNat → buttons.isActive button = true) :
      Kept delayFlags { system with
        buttons := buttons, pass := nextFlag currentTime index } :=
    ⟨up, fun _ _ access next => ⟨past, by rw [nextFlag_calm next]; trivial⟩⟩
  cases access with
  | test =>
    simp only [refresh]
    split
    · refine ⟨kept.up, fun _ _ access next => ?_⟩
      cases next
      exact ⟨past, trivial⟩
    · exact passes kept.up
  | age =>
    simp only [refresh]
    split
    · rename_i old
      refine ⟨kept.up, fun _ _ access next => ?_⟩
      cases next
      refine ⟨past, fun button same pressed given => ?_⟩
      have before := past button pressed given
      have shown := millis_sub_le before
      rw [← same, (tracks.noted button pressed given).1, tracks.limits, loaded.1, gt_iff_lt,
        UInt32.lt_iff_toNat_lt] at old
      dsimp only
      omega
    · exact passes kept.up
  | load =>
    refine ⟨kept.up, fun _ _ access next => ?_⟩
    cases next
    exact ⟨past, rfl, sound⟩
  | store allFlags =>
    obtain ⟨rfl, late⟩ := sound
    refine passes fun button pressed given fresh => ?_
    refine (FlagsBase.isActive_cleared system.buttons index button).mpr
      ⟨kept.up button pressed given fresh, fun same => ?_⟩
    have := late button same pressed given
    omega

private theorem kept_step {delayFlags : UInt32} {periodMs : Nat} {system next : System}
    {event : Event}
    (tracks : Tracks delayFlags system) (kept : Kept delayFlags system)
    (paced : Paced system event) (timely : Timely delayFlags periodMs system event)
    (stepped : step delayFlags system event = some next) : Kept delayFlags next := by
  cases event with
  | edge button level nowUs setUs =>
    cases stepped
    have stamped : Kept delayFlags (system.stamp button nowUs) := { kept with }
    split
    · rename_i accepted
      exact kept_press stamped (timely accepted).1 button setUs
    · exact stamped
  | checkFlagsDuration nowUs =>
    obtain ⟨-, rfl⟩ := moves_of_step stepped
    have later := ms_le paced.1
    refine ⟨fun button pressed given fresh => ?_, fun _ _ access next => ?_⟩
    · exact kept.up button pressed given
        (Nat.le_trans tracks.clock.1 (Nat.le_trans later fresh))
    · cases next
      exact ⟨fun button pressed given =>
        Nat.le_trans (tracks.noted button pressed given).2 later, trivial⟩
  | refreshFlags =>
    obtain ⟨_, _, _, here, rfl⟩ := moves_of_step stepped
    exact kept_refresh tracks kept here
  | checkStateMachine nowUs =>
    obtain ⟨-, rfl⟩ := moves_of_step stepped
    refine ⟨kept.up, fun _ _ access next => ?_⟩
    dsimp only at next
    split at next <;> cases next
  | next | setTimer nowUs =>
    obtain ⟨-, rfl⟩ := moves_of_step stepped
    exact ⟨kept.up, by simp⟩

/-! ### How often a press is asked about -/

/-- What the count of a press may have come to. With `prompt` passes it stays at one. -/
structure Counts (delayFlags : UInt32) (prompt : Prop) (pass : Pass) (checkedMs questionedMs : Nat)
    (pressed asked : Nat) : Prop where
  once : 1 ≤ asked → pass = .asking ∨ pressed ≤ questionedMs
  twice : 2 ≤ asked → ¬ prompt ∧ (pass = .asking ∧ pressed + delayFlags.toNat < checkedMs ∨
    pressed + delayFlags.toNat < questionedMs)
  most : asked ≤ 2

/-- Between questions a count stays what it is. -/
theorem Counts.moved {delayFlags : UInt32} {prompt : Prop} {pass next : Pass}
    (counts : Counts delayFlags prompt pass checkedMs questionedMs pressed asked)
    (quiet : pass ≠ .asking) :
    Counts delayFlags prompt next laterMs questionedMs pressed asked where
  once count := .inr ((counts.once count).resolve_left quiet)
  twice count := ⟨(counts.twice count).1,
    .inr ((counts.twice count).2.resolve_left fun asking => quiet asking.1)⟩
  most := counts.most

structure Counted (delayFlags : UInt32) (prompt : Prop) (system : System) : Prop where
  tracks : Tracks delayFlags system
  counts : ∀ button pressed, system.pressedMs button = some pressed →
    Counts delayFlags prompt system.pass system.checkedMs system.questionedMs pressed
      (system.asked button)
  same : prompt → system.pass = .due → system.checkedMs = system.refreshedMs

private theorem Tracks.fresh {delayFlags : UInt32} {system : System}
    (tracks : Tracks delayFlags system)
    (due : system.pass = .due) {button : Fin 3} (up : system.buttons.isActive button = true)
    (given : system.pressedMs button = some pressed) :
    system.refreshedMs ≤ pressed + delayFlags.toNat := by
  obtain ⟨_, same, -, settled⟩ := tracks.raised button up
  cases given.symm.trans same
  exact settled (by rw [due]; exact id)

private theorem refresh_not_due (flags : FlagsBase) (currentTime : UInt32) (index : Nat)
    (access : Access) : (refresh flags currentTime index access).2 ≠ .due ∧
      (refresh flags currentTime index access).2 ≠ .asking := by
  have next : nextFlag currentTime index ≠ .due ∧ nextFlag currentTime index ≠ .asking := by
    unfold nextFlag
    split <;> simp
  cases access with
  | test | age =>
    simp only [refresh]
    split
    · simp
    · exact next
  | load => simp [refresh]
  | store allFlags => exact next

/-- A press that nobody asked about yet: it has not come with a question, nor too close
behind one, and its flag is still up. -/
structure Heard (delayFlags : UInt32) (periodMs : Nat) (system : System) : Prop where
  tracks : Tracks delayFlags system
  kept : Kept delayFlags system
  waits : ∀ button pressed, system.pressedMs button = some pressed → system.asked button = 0 →
    system.pass ≠ .asking ∧ system.questionedMs + periodMs ≤ pressed ∧
      system.refreshedMs ≤ pressed + delayFlags.toNat

/-- The button is not pressed again. -/
def Alone (delayFlags : UInt32) (button : Fin 3) (system : System) : Event → Prop
  | .edge other level nowUs _ =>
    other = button → ¬ pressAccepted delayFlags system other level nowUs
  | _ => True

instance (delayFlags : UInt32) (button : Fin 3) (system : System) (event : Event) :
    Decidable (Alone delayFlags button system event) :=
  match event with
  | .edge .. => inferInstanceAs (Decidable (_ → _))
  | .checkFlagsDuration _ | .refreshFlags | .checkStateMachine _ | .next | .setTimer _ =>
    isTrue trivial

/-- A press that came with a question, behind the call of `next`, or in the same millisecond. -/
def Swallowed (button : Fin 3) (system : System) : Prop :=
  system.asked button = 0 ∧ ∃ pressed, system.pressedMs button = some pressed ∧
    (system.pass = .asking ∨ pressed ≤ system.questionedMs)

/-- What is said of the last press of every button is said of a new one, and of the others as
before. -/
theorem forall_press {about : Nat → Nat → Prop} {pressedMs : Fin 3 → Option Nat}
    {asked : Fin 3 → Nat} (before : ∀ button pressed, pressedMs button = some pressed →
      about pressed (asked button)) {now : Nat} (fresh : about now 0) (button : Fin 3) :
    ∀ other pressed, Function.update pressedMs button (some now) other = some pressed →
      about pressed (Function.update asked button 0 other) := by
  intro other pressed given
  by_cases same : other = button
  · subst same
    rw [Function.update_self] at given ⊢
    cases given
    exact fresh
  · rw [Function.update_of_ne same] at given ⊢
    exact before other pressed given

private theorem counted_step {delayFlags : UInt32} (small : delayFlags.toNat < 2 ^ 31)
    {prompt : Prop}
    {system next : System} {event : Event} (counted : Counted delayFlags prompt system)
    (paced : Paced system event) (prompts : prompt → Prompt system event)
    (stepped : step delayFlags system event = some next) : Counted delayFlags prompt next := by
  obtain ⟨tracks, counts, same⟩ := counted
  have tracked := tracks_step small tracks paced stepped
  cases event with
  | edge button level nowUs setUs =>
    cases stepped
    by_cases accepted : pressAccepted delayFlags system button level nowUs
    · rw [if_pos accepted] at tracked ⊢
      exact ⟨tracked, forall_press counts ⟨by simp, by simp, Nat.zero_le _⟩ button, same⟩
    · rw [if_neg accepted] at tracked ⊢
      exact ⟨tracked, counts, same⟩
  | checkFlagsDuration nowUs =>
    obtain ⟨idle, rfl⟩ := moves_of_step stepped
    exact ⟨tracked, fun button pressed given =>
      (counts button pressed given).moved (by simp [idle]), by simp⟩
  | refreshFlags =>
    obtain ⟨_, _, _, here, rfl⟩ := moves_of_step stepped
    exact ⟨tracked, fun button pressed given =>
      (counts button pressed given).moved (by simp [here]),
      fun _ due => absurd due (refresh_not_due ..).1⟩
  | checkStateMachine nowUs =>
    obtain ⟨refreshed, rfl⟩ := moves_of_step stepped
    exact ⟨tracked, fun button pressed given =>
      (counts button pressed given).moved (by simp [refreshed]),
      fun promptly _ => prompts promptly⟩
  | next =>
    obtain ⟨due, rfl⟩ := moves_of_step stepped
    refine ⟨tracked, fun button pressed given => ?_, by simp⟩
    obtain ⟨once, twice, most⟩ := counts button pressed given
    have ordered := tracks.ordered
    rw [System.Ordered, due] at ordered
    obtain ⟨asked, refreshed, late⟩ := ordered
    -- a flag that is up was raised by this press, so no question was late for it
    have first : system.buttons.isActive button = true → system.asked button ≤ 1 := by
      intro raised
      have fresh := tracks.fresh due raised given
      by_contra many
      obtain ⟨-, ⟨asking, -⟩ | past⟩ := twice (by omega)
      · rw [due] at asking
        cases asking
      · omega
    dsimp only
    split
    · rename_i raised
      have few := first raised
      refine ⟨fun _ => .inl rfl, fun count => ?_, by omega⟩
      have past := (once (by omega)).resolve_left (by simp [due])
      refine ⟨fun promptly => ?_, .inl ⟨rfl, by omega⟩⟩
      have fresh := tracks.fresh due raised given
      have := same promptly due
      omega
    · refine ⟨fun _ => .inl rfl, fun count => ?_, most⟩
      obtain ⟨slow, ⟨asking, -⟩ | behind⟩ := twice count
      · rw [due] at asking
        cases asking
      · exact ⟨slow, .inr behind⟩
  | setTimer nowUs =>
    obtain ⟨asking, rfl⟩ := moves_of_step stepped
    have later := ms_le paced
    refine ⟨tracked, fun button pressed given => ?_, by simp⟩
    obtain ⟨once, twice, most⟩ := counts button pressed given
    have past := (tracks.noted button pressed given).2
    have order := tracks.clock
    have ordered := tracks.ordered
    rw [System.Ordered, asking] at ordered
    refine ⟨fun count => .inr (Nat.le_trans past later), fun count => ?_, most⟩
    obtain ⟨slow, ⟨-, behind⟩ | behind⟩ := twice count
    · exact ⟨slow, .inr (Nat.lt_of_lt_of_le behind (Nat.le_trans order.2 later))⟩
    · exact ⟨slow, .inr (by dsimp only; omega)⟩

private theorem heard_step {delayFlags : UInt32} (small : delayFlags.toNat < 2 ^ 31)
    {periodMs : Nat}
    {system next : System} {event : Event} (heard : Heard delayFlags periodMs system)
    (paced : Paced system event) (timely : Timely delayFlags periodMs system event)
    (stepped : step delayFlags system event = some next) : Heard delayFlags periodMs next := by
  obtain ⟨tracks, kept, waits⟩ := heard
  refine ⟨tracks_step small tracks paced stepped, kept_step tracks kept paced timely stepped, ?_⟩
  cases event with
  | edge button level nowUs setUs =>
    cases stepped
    split
    · rename_i accepted
      obtain ⟨-, quiet, apart⟩ := timely accepted
      have later := ms_le (Nat.le_trans paced.1 paced.2)
      have order := tracks.clock.1
      exact @forall_press
        (fun pressed asked => asked = 0 → system.pass ≠ .asking ∧
          system.questionedMs + periodMs ≤ pressed ∧
            system.refreshedMs ≤ pressed + delayFlags.toNat)
        _ _ waits _ (fun _ => ⟨quiet, apart, by omega⟩) button
    · exact waits
  | checkFlagsDuration nowUs =>
    obtain ⟨idle, rfl⟩ := moves_of_step stepped
    intro button pressed given none
    obtain ⟨-, apart, -⟩ := waits button pressed given none
    have ordered := tracks.ordered
    rw [System.Ordered, idle] at ordered
    have soon : ms nowUs ≤ system.checkedMs + periodMs := timely
    exact ⟨by simp, apart, by dsimp only; omega⟩
  | refreshFlags =>
    obtain ⟨_, _, _, -, rfl⟩ := moves_of_step stepped
    intro button pressed given none
    obtain ⟨-, apart, fresh⟩ := waits button pressed given none
    exact ⟨(refresh_not_due ..).2, apart, fresh⟩
  | checkStateMachine nowUs =>
    obtain ⟨-, rfl⟩ := moves_of_step stepped
    intro button pressed given none
    obtain ⟨-, apart, fresh⟩ := waits button pressed given none
    refine ⟨?_, apart, fresh⟩
    dsimp only
    split <;> simp
  | next =>
    obtain ⟨-, rfl⟩ := moves_of_step stepped
    intro button pressed given none
    dsimp only at none
    split at none
    · cases none
    · rename_i down
      obtain ⟨-, -, fresh⟩ := waits button pressed given none
      exact absurd (kept.up button pressed given fresh) down
  | setTimer nowUs =>
    obtain ⟨asking, rfl⟩ := moves_of_step stepped
    intro button pressed given none
    exact absurd asking (waits button pressed given none).1

/-- In every run, whatever the contacts do: the flag of a press is up in at most two calls of
`next`, in at most one if passes are prompt, and in at least one, by the time it is dropped, if
passes are regular and presses come clear of the refreshes and the questions. -/
theorem presses_reach_the_state_machine {delayFlags : UInt32} (small : delayFlags.toNat < 2 ^ 31)
    (nowUs : Nat) {events : List Event} {system : System}
    (paced : Along (step delayFlags) Paced (.start delayFlags nowUs) events)
    (ran : run (step delayFlags) (.start delayFlags nowUs) events = some system)
    (button : Fin 3) (pressed : Nat) (given : system.pressedMs button = some pressed) :
    system.asked button ≤ 2 ∧
      (Along (step delayFlags) Prompt (.start delayFlags nowUs) events →
        system.asked button ≤ 1) ∧
      ∀ periodMs, Along (step delayFlags) (Timely delayFlags periodMs) (.start delayFlags nowUs)
          events → pressed + delayFlags.toNat < system.refreshedMs → 1 ≤ system.asked button := by
  have counted {prompt : Prop} (prompts : Along (step delayFlags)
      (fun system event => prompt → Prompt system event) (.start delayFlags nowUs) events) :
      Counted delayFlags prompt system :=
    run_invariant_along
      (fun counted met stepped => counted_step small counted met.1 met.2 stepped)
      ⟨tracks_start delayFlags nowUs, nofun, nofun⟩ (along_both And.intro paced prompts) ran
  refine ⟨?_, fun prompts => ?_, fun periodMs timely late => ?_⟩
  · have slow := @counted False (along_of_forall (fun _ _ => nofun) _ _)
    exact (slow.counts button pressed given).most
  · have fast := @counted True (along_both (fun met _ _ => met) prompts prompts)
    by_contra many
    exact ((fast.counts button pressed given).twice (by omega)).1 trivial
  · have heard : Heard delayFlags periodMs system :=
      run_invariant_along
        (fun heard met stepped => heard_step small heard met.1 met.2 stepped)
        ⟨tracks_start delayFlags nowUs, kept_start delayFlags nowUs, nofun⟩
        (along_both And.intro paced timely) ran
    by_contra none
    have := (heard.waits button pressed given (by omega)).2.2
    omega

private def passAt (nowMs accesses : Nat) (asks : Bool) : List Event :=
  [.checkFlagsDuration (1000 * nowMs)] ++ List.replicate accesses .refreshFlags ++
    [.checkStateMachine (1000 * nowMs)] ++
      if asks then [.next, .setTimer (1000 * nowMs)] else []

/-- A press that bounces, with passes before and behind it. A flag that is up takes one access
more than one that is down, or three more when it is dropped. -/
private def bouncingPress (button : Fin 3) : List Event :=
  passAt 50 8 false ++ passAt 105 8 true ++ passAt 160 8 false ++
    [.edge button false 170000 170003, .edge button true 170100 170100,
      .edge button false 170200 170203] ++
    passAt 210 9 true ++ passAt 265 9 false ++ passAt 320 11 true

theorem bouncing_press_reaches_the_state_machine : ∃ system,
    run (step 100) (.start 100 0) (bouncingPress 0) = some system ∧
      system.pressedMs 0 = some 170 ∧ system.asked 0 = 1 := by
  obtain ⟨-, most, least⟩ := @presses_reach_the_state_machine 100 (by decide) 0 (bouncingPress 0) _
    (by decide +kernel) rfl 0 170 rfl
  exact ⟨_, rfl, rfl, Nat.le_antisymm (most (by decide +kernel))
    (least 60 (by decide +kernel) (by decide +kernel))⟩

private theorem swallowed_step {delayFlags : UInt32} {system next : System} {event : Event}
    {button : Fin 3} (counted : Counted delayFlags True system)
    (swallowed : Swallowed button system) (paced : Paced system event)
    (alone : Alone delayFlags button system event)
    (stepped : step delayFlags system event = some next) : Swallowed button next := by
  obtain ⟨tracks, -, same⟩ := counted
  obtain ⟨none, pressed, given, with_⟩ := swallowed
  cases event with
  | edge other level nowUs setUs =>
    cases stepped
    split
    · rename_i accepted
      have apart : button ≠ other := fun equal => alone equal.symm accepted
      refine ⟨?_, pressed, ?_, with_⟩
      · exact (Function.update_of_ne apart ..).trans none
      · exact (Function.update_of_ne apart ..).trans given
    · exact ⟨none, pressed, given, with_⟩
  | checkFlagsDuration nowUs =>
    obtain ⟨idle, rfl⟩ := moves_of_step stepped
    exact ⟨none, pressed, given, .inr (with_.resolve_left (by simp [idle]))⟩
  | refreshFlags =>
    obtain ⟨_, _, _, here, rfl⟩ := moves_of_step stepped
    exact ⟨none, pressed, given, .inr (with_.resolve_left (by simp [here]))⟩
  | checkStateMachine nowUs =>
    obtain ⟨refreshed, rfl⟩ := moves_of_step stepped
    exact ⟨none, pressed, given, .inr (with_.resolve_left (by simp [refreshed]))⟩
  | next =>
    obtain ⟨due, rfl⟩ := moves_of_step stepped
    have before := with_.resolve_left (by simp [due])
    have ordered := tracks.ordered
    rw [System.Ordered, due] at ordered
    have prompt := same trivial due
    have down : ¬ system.buttons.isActive button = true := by
      intro raised
      have fresh := tracks.fresh due raised given
      omega
    exact ⟨(if_neg down).trans none, pressed, given, .inl rfl⟩
  | setTimer nowUs =>
    obtain ⟨-, rfl⟩ := moves_of_step stepped
    exact ⟨none, pressed, given,
      .inr (Nat.le_trans (tracks.noted button pressed given).2 (ms_le paced))⟩

/-- What is known of a run with prompt passes in which a press is swallowed. -/
structure Dropped (delayFlags : UInt32) (button : Fin 3) (system : System) : Prop where
  counted : Counted delayFlags True system
  swallowed : Swallowed button system

/-- A press that comes with a question is never asked about, if passes are prompt: by the next
question its flag has been dropped, whatever interrupts cut into the refreshes. -/
theorem press_with_a_question_is_swallowed {delayFlags : UInt32}
    (small : delayFlags.toNat < 2 ^ 31) (nowUs : Nat) {before after : List Event}
    {system finish : System}
    (paced : Along (step delayFlags) (fun system event => Paced system event ∧ Prompt system event)
      (.start delayFlags nowUs) before)
    (reached : run (step delayFlags) (.start delayFlags nowUs) before = some system)
    {button : Fin 3} (swallowed : Swallowed button system)
    (still : Along (step delayFlags) (fun system event => Paced system event ∧
      Prompt system event ∧ Alone delayFlags button system event) system after)
    (ran : run (step delayFlags) system after = some finish) : finish.asked button = 0 := by
  have counted : Counted delayFlags True system :=
    run_invariant_along
      (fun counted met stepped => counted_step small counted met.1 (fun _ => met.2) stepped)
      ⟨tracks_start delayFlags nowUs, nofun, nofun⟩ paced reached
  have dropped : Dropped delayFlags button finish :=
    run_invariant_along
      (fun dropped met stepped =>
        ⟨counted_step small dropped.counted met.1 (fun _ => met.2.1) stepped,
          swallowed_step dropped.counted dropped.swallowed met.1 met.2.2 stepped⟩)
      ⟨counted, swallowed⟩ still ran
  exact dropped.swallowed.1

/-- Another button is pressed while the flag is dropped. -/
private def droppedPress (other : Fin 3) : List Event :=
  passAt 160 9 false ++ [.checkFlagsDuration 206000] ++ List.replicate 3 .refreshFlags ++
    [.edge other false 206010 206013] ++ List.replicate 8 .refreshFlags ++
    [.checkStateMachine 206400, .next, .setTimer 207000]

theorem swallowed_press : ∃ finish,
    run (step 100) (.start 100 0) (passAt 50 8 false ++ passAt 105 8 true ++
      [.edge 0 false 105500 105503] ++ droppedPress 1) = some finish ∧
      finish.pressedMs 0 = some 105 ∧ finish.asked 0 = 0 := by
  have never := @press_with_a_question_is_swallowed 100 (by decide) 0
    (passAt 50 8 false ++ passAt 105 8 true ++ [.edge 0 false 105500 105503])
    (droppedPress 1) _ _ (by decide +kernel) rfl 0
    ⟨rfl, 105, rfl, .inr (by decide +kernel)⟩ (by decide +kernel) rfl
  exact ⟨_, rfl, rfl, never⟩

end BallyOS.Buttons
