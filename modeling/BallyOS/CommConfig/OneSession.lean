import BallyOS.CommConfig.Staying

/-! One menu session, from the first pass after COMM_CONFIG was entered to the restart. -/
namespace BallyOS.CommConfig
open Library StateMachine States

/-! ### One pass -/

/-- What a pass over a menu that was set up can come to. -/
inductive Pass (menu : Menu) (readings : Readings) (after : Menu) : Bool → Option Cause → Prop
  | ended (scheduled : menu.restartScheduled = true) (same : after = menu) :
    Pass menu readings after false none
  | confirmed (unscheduled : menu.restartScheduled = false)
      (scheduled : after.restartScheduled = true) (commMode : UInt8) (setOk saved : Bool) :
    Pass menu readings after true (some (.confirmed commMode setOk saved))
  | browsed (unscheduled : menu.restartScheduled = false)
      (still : after.restartScheduled = false)
      (activity : after.lastActivityMs = readings.nowMs) :
    Pass menu readings after true none
  | timedOut (unscheduled : menu.restartScheduled = false)
      (scheduled : after.restartScheduled = true)
      (idle : kInactivityTimeoutMs ≤ readings.nowMs - menu.lastActivityMs) :
    Pass menu readings after false (some .inactivity)
  | waited (unscheduled : menu.restartScheduled = false)
      (still : after.restartScheduled = false)
      (activity : after.lastActivityMs = menu.lastActivityMs) :
    Pass menu readings after false none

/-- The menu that a pass works on. -/
def Menu.entered (menu : Menu) (readings : Readings) : Menu :=
  if menu.active then menu else menu.init readings

private theorem getD_opened (menu : Menu) (readings : Readings) :
    (if menu.active = true then none else some (menu.init readings)).getD menu =
      menu.entered readings := by
  unfold Menu.entered
  split
  · rfl
  · rfl

private theorem browse_frame (menu : Menu) (readings : Readings) :
    (menu.browse readings).2.active = menu.active ∧
      (menu.browse readings).2.restartScheduled = menu.restartScheduled ∧
      (menu.browse readings).2.lastActivityMs = menu.lastActivityMs :=
  ⟨rfl, rfl, rfl⟩

private theorem pass_of_tick (menu : Menu) (readings : Readings) :
    Pass (menu.entered readings) readings (commConfigTick menu readings).menu
      (commConfigTick menu readings).accepted (commConfigTick menu readings).restart := by
  simp only [commConfigTick, getD_opened]
  generalize menu.entered readings = entered
  obtain ⟨-, unscheduled, activity⟩ := browse_frame entered readings
  split
  · rename_i scheduled
    exact .ended scheduled rfl
  rename_i fresh
  have fresh : entered.restartScheduled = false := Bool.eq_false_iff.mpr fresh
  split
  · exact .confirmed fresh rfl ..
  split
  · exact .browsed fresh (unscheduled.trans fresh) rfl
  split
  · rename_i idle
    exact .timedOut fresh rfl idle
  · exact .waited fresh (unscheduled.trans fresh) activity

private theorem state_of_tick (menu : Menu) (readings : Readings) :
    (commConfigTick menu readings).state = action .commConfig := by
  simp only [commConfigTick]
  grind [action]

private theorem opened_of_tick (menu : Menu) (readings : Readings) :
    (commConfigTick menu readings).opened =
      if menu.active then none else some (menu.init readings) := by
  simp only [commConfigTick]
  grind

private theorem active_of_tick (menu : Menu) (readings : Readings) :
    (commConfigTick menu readings).menu.active = true := by
  simp only [commConfigTick]
  grind [Menu.init, Menu.browse]

/-- A LED is there for every selection that a pass can come to. -/
theorem led_of_tick {menu : Menu} (selected : menu.active = true → menu.selected < 4)
    (readings : Readings) : (commConfigTick menu readings).led.isSome = true ∧
      (commConfigTick menu readings).menu.selected < 4 := by
  have below (option : UInt8) : option % 4 < 4 := UInt8.mod_lt _ (by decide)
  have entered : (menu.entered readings).selected < 4 := by
    unfold Menu.entered
    split
    · rename_i active
      exact selected active
    · simp only [Menu.init]
      split
      · rename_i stored
        exact UInt8.lt_of_le_of_lt stored (by decide)
      · decide
  have shown : (ledForOption[(menu.entered readings).selected.toNat]?).isSome = true := by
    rw [List.getElem?_eq_getElem (UInt8.lt_iff_toNat_lt.mp entered)]
    rfl
  have browsed : ((menu.entered readings).browse readings).2.selected < 4 := by
    simp only [Menu.browse]
    grind
  simp only [commConfigTick, getD_opened]
  grind

/-! ### The passes of a run -/

/-- A restart for want of a press comes half a minute after the first pass and after
every press before it. -/
def Idled (ticks : List Readings) (presses : List Nat) (restart : Restart) : Prop :=
  restart.cause = .inactivity →
    (∀ first, ticks.head? = some first →
      first.uptimeMs + kInactivityTimeoutMs.toNat ≤ restart.scheduledMs) ∧
    ∀ press ∈ presses, press + kInactivityTimeoutMs.toNat ≤ restart.scheduledMs

/-- The timer runs from `latest`: no earlier than the first pass and any press. -/
structure Since (ticks : List Readings) (presses : List Nat) (menu : Menu) (latest : Nat) :
    Prop where
  activity : menu.lastActivityMs = UInt32.ofNat latest
  first : ∀ first, ticks.head? = some first → first.uptimeMs ≤ latest
  presses : ∀ press ∈ presses, press ≤ latest

/-- The one restart, and until it is scheduled the time that has to go by. -/
structure Timed (world : World) : Prop where
  unscheduled : world.menu.restartScheduled = false → world.history.restarts = [] ∧
    (world.history.ticks ≠ [] → ∃ latest ≤ world.clock,
      Since world.history.ticks world.history.presses world.menu latest)
  single : world.history.restarts.length ≤ 1
  idled : ∀ restart ∈ world.history.restarts,
    Idled world.history.ticks world.history.presses restart

/-- What the menu keeps, against what its passes came to. -/
structure Session (world : World) : Prop where
  fresh : world.history.ticks = [] → world.menu.active = false ∧ world.history.openings = [] ∧
    world.history.presses = [] ∧ world.history.restarts = []
  opened : ∀ first, world.history.ticks.head? = some first → world.menu.active = true ∧
    ∃ before : Menu, world.history.openings = [before.init first]
  timed : Timed world

private theorem session_boot (mode : Robot.BootMode) (ready serial : Bool)
    (defined : Mover → StateName → Bool) : Session (boot mode ready serial defined) where
  fresh := fun _ => ⟨rfl, rfl, rfl, rfl⟩
  opened := fun _ head => by contradiction
  timed := ⟨fun _ => ⟨rfl, fun none => absurd rfl none⟩, Nat.zero_le 1,
    fun _ member => absurd member List.not_mem_nil⟩

private theorem session_moved {world : World} (session : Session world) (robot : Robot) :
    Session (world.moved robot) :=
  ⟨session.fresh, session.opened, session.timed.unscheduled, session.timed.single,
    session.timed.idled⟩

private theorem nowMs_sub {readings : Readings} {latest : Nat} (onward : latest ≤ readings.uptimeMs)
    (idle : kInactivityTimeoutMs ≤ readings.nowMs - UInt32.ofNat latest) :
    latest + kInactivityTimeoutMs.toNat ≤ readings.uptimeMs := by
  have gap := UInt32.le_iff_toNat_le.mp idle
  have fewer : (readings.nowMs - UInt32.ofNat latest).toNat ≤ readings.uptimeMs - latest := by
    rw [Readings.nowMs, UInt32.toNat_sub, UInt32.toNat_ofNat', UInt32.toNat_ofNat']
    omega
  omega

/-- The menu a pass works on, with the passes that it makes one more of. -/
theorem entered_since {world : World} (session : Session world) {readings : Readings}
    (onward : world.clock ≤ readings.uptimeMs)
    (fresh : (world.menu.entered readings).restartScheduled = false) :
    world.history.restarts = [] ∧ ∃ latest ≤ readings.uptimeMs,
      Since (world.history.ticks ++ [readings]) world.history.presses
        (world.menu.entered readings) latest := by
  by_cases first : world.history.ticks = []
  · obtain ⟨inactive, -, presses, restarts⟩ := session.fresh first
    refine ⟨restarts, readings.uptimeMs, Nat.le_refl _, ?_, ?_, ?_⟩
    · simp only [Menu.entered, inactive]
      rfl
    · intro begun head
      rw [first] at head
      cases head
      exact Nat.le_refl _
    · intro press member
      rw [presses] at member
      exact absurd member List.not_mem_nil
  · obtain ⟨begun, head⟩ : ∃ begun, world.history.ticks.head? = some begun :=
      ⟨_, List.head?_eq_some_head first⟩
    have active := (session.opened begun head).1
    have same : world.menu.entered readings = world.menu := if_pos active
    rw [same] at fresh ⊢
    obtain ⟨restarts, since⟩ := session.timed.unscheduled fresh
    obtain ⟨latest, before, activity, start, presses⟩ := since first
    refine ⟨restarts, latest, Nat.le_trans before onward, activity, ?_, presses⟩
    intro begun' head'
    rw [List.head?_append, head] at head'
    exact start begun' (head.trans head')

private theorem head?_concat {ticks : List Readings} (begun : ticks ≠ []) (readings : Readings) :
    (ticks ++ [readings]).head? = ticks.head? := by
  rw [List.head?_append, List.head?_eq_some_head begun]
  rfl

private theorem session_of_pass {world : World} (session : Session world) {readings : Readings}
    (onward : world.clock ≤ readings.uptimeMs) {outcome : Outcome}
    (pass : Pass (world.menu.entered readings) readings outcome.menu outcome.accepted
      outcome.restart)
    (opened : outcome.opened =
      if world.menu.active then none else some (world.menu.init readings))
    (active : outcome.menu.active = true) : Session (world.ticked readings outcome) := by
  obtain ⟨state, menu, led, opening, accepted, restart⟩ := outcome
  dsimp only at pass opened active
  have openings : ∀ first, (world.history.ticks ++ [readings]).head? = some first →
      ∃ before : Menu, world.history.openings ++ opening.toList = [before.init first] := by
    intro first head
    by_cases begun : world.history.ticks = []
    · obtain ⟨inactive, none, -⟩ := session.fresh begun
      rw [begun] at head
      cases head
      rw [none, opened, inactive]
      exact ⟨world.menu, rfl⟩
    · rw [head?_concat begun] at head
      obtain ⟨already, before, once⟩ := session.opened first head
      rw [opened, if_pos already, once]
      exact ⟨before, rfl⟩
  have begun : world.history.ticks ++ [readings] ≠ [] := by simp
  refine ⟨fun none => absurd none begun, fun first head => ⟨active, openings first head⟩, ?_⟩
  cases pass with
  | ended scheduled same =>
    have before : world.history.ticks ≠ [] := by
      intro first
      rw [Menu.entered, (session.fresh first).1] at scheduled
      contradiction
    simp only [World.ticked, Option.map_none, Option.toList_none, List.append_nil,
      Bool.false_eq_true, if_false]
    refine ⟨fun fresh => ?_, session.timed.single, fun restart member cause => ?_⟩
    · rw [same, scheduled] at fresh
      contradiction
    · rw [head?_concat before]
      exact session.timed.idled restart member cause
  | confirmed fresh scheduled commMode setOk saved =>
    obtain ⟨none, -⟩ := entered_since session onward fresh
    simp only [World.ticked, none, Option.map_some, Option.toList_some, List.nil_append]
    refine ⟨fun fresh => ?_, Nat.le_refl 1, fun restart member cause => ?_⟩
    · rw [scheduled] at fresh
      contradiction
    · rw [List.mem_singleton.mp member] at cause
      contradiction
  | browsed fresh still activity =>
    obtain ⟨none, latest, past, since⟩ := entered_since session onward fresh
    simp only [World.ticked, none, Option.map_none, Option.toList_none, List.append_nil, if_true]
    refine ⟨fun _ => ⟨rfl, fun _ => ⟨readings.uptimeMs, Nat.le_refl _, activity, ?_, ?_⟩⟩,
      Nat.zero_le 1, fun restart member => absurd member List.not_mem_nil⟩
    · exact fun first head => Nat.le_trans (since.first first head) past
    · intro press member
      obtain earlier | now := List.mem_append.mp member
      · exact Nat.le_trans (since.presses press earlier) past
      · exact Nat.le_of_eq (List.mem_singleton.mp now)
  | timedOut fresh scheduled idle =>
    obtain ⟨none, latest, past, since⟩ := entered_since session onward fresh
    simp only [World.ticked, none, Option.map_some, Option.toList_some, List.nil_append,
      Bool.false_eq_true, if_false, List.append_nil]
    refine ⟨fun fresh => ?_, Nat.le_refl 1, fun restart member _ => ?_⟩
    · rw [scheduled] at fresh
      contradiction
    · rw [List.mem_singleton.mp member]
      rw [since.activity] at idle
      have half := nowMs_sub past idle
      have before {time : Nat} (earlier : time ≤ latest) :
          time + kInactivityTimeoutMs.toNat ≤ readings.uptimeMs :=
        Nat.le_trans (Nat.add_le_add_right earlier _) half
      exact ⟨fun first head => before (since.first first head),
        fun press pressed => before (since.presses press pressed)⟩
  | waited fresh still activity =>
    obtain ⟨none, latest, past, since⟩ := entered_since session onward fresh
    simp only [World.ticked, none, Option.map_none, Option.toList_none, List.append_nil,
      Bool.false_eq_true, if_false]
    refine ⟨fun _ => ⟨rfl, fun _ => ⟨latest, past, activity.trans since.activity, since.first,
      since.presses⟩⟩, Nat.zero_le 1, fun restart member => absurd member List.not_mem_nil⟩

private theorem session_ticked {world : World} (session : Session world) {readings : Readings}
    (onward : world.clock ≤ readings.uptimeMs) :
    Session (world.ticked readings (commConfigTick world.menu readings)) :=
  session_of_pass session onward (pass_of_tick ..) (opened_of_tick ..) (active_of_tick ..)

/-! ### The whole robot -/

/-- What a step of the whole can be. -/
inductive Stepped (world : World) : Event → World → Prop
  | robot (event : States.Event) (robot : Robot)
      (moved : Robot.step world.robot event = some robot) :
    Stepped world (.robot event) (world.moved robot)
  | ticked (readings : Readings) (robot : Robot)
      (here : world.robot.machine.calls .run = .loaded .commConfig)
      (onward : world.clock ≤ readings.uptimeMs)
      (moved : Robot.step world.robot .act = some robot) :
    Stepped world (.tick readings)
      ((world.moved robot).ticked readings (commConfigTick world.menu readings))
  | restarted (uptimeMs : Nat) (onward : world.clock ≤ uptimeMs) :
    Stepped world (.restart uptimeMs) { world with rebooted := true, clock := uptimeMs }

private theorem stepped_of_step {world next : World} {event : Event}
    (stepped : step world event = some next) : Stepped world event next := by
  unfold step at stepped
  split at stepped
  · contradiction
  split at stepped
  · split at stepped
    · contradiction
    · obtain ⟨robot, moved, rfl⟩ := Option.map_eq_some_iff.mp stepped
      exact .robot .act robot moved
  · rename_i event _
    obtain ⟨robot, moved, rfl⟩ := Option.map_eq_some_iff.mp stepped
    exact .robot event robot moved
  · rename_i readings
    split at stepped
    · rename_i here
      split at stepped
      · rename_i onward
        obtain ⟨robot, moved, rfl⟩ := Option.map_eq_some_iff.mp stepped
        refine .ticked readings robot here onward ?_
        rw [state_of_tick] at moved
        simp only [Robot.step, here]
        exact moved
      · contradiction
    · contradiction
  · rename_i uptimeMs
    split at stepped
    · rename_i due
      cases stepped
      exact .restarted uptimeMs due.1
    · contradiction

def World.Undisturbed (world : World) : Event → Prop
  | .robot event => CommConfig.Undisturbed world.robot event
  | _ => True

/-- COMM_CONFIG is left by the restart alone, and runs one session: entered once, its
menu is set up in the first pass, from the mode stored then and with the timer at that
pass, and it schedules one restart, for want of a press only after half a minute. -/
structure OneSession (world : World) : Prop where
  stays : world.history.visits ≠ 0 → world.current = .commConfig
  once : world.history.visits ≤ 1
  entered : world.history.ticks ≠ [] → world.history.visits = 1
  opened : ∀ first, world.history.ticks.head? = some first → ∃ opening : Menu,
    world.history.openings = [opening] ∧
    opening.selected = (if first.commMode ≤ 3 then first.commMode else 0) ∧
    opening.lastActivityMs = first.nowMs
  unopened : world.history.ticks = [] → world.history.openings = []
  single : world.history.restarts.length ≤ 1
  idled : ∀ restart ∈ world.history.restarts,
    Idled world.history.ticks world.history.presses restart

/-- The invariant of an undisturbed run. -/
structure Kept (world : World) : Prop where
  staying : Staying world.robot
  session : Session world
  stays : world.history.visits ≠ 0 → world.current = .commConfig
  visited : world.current = .commConfig → world.history.visits = 1
  loaded : ∀ mover, (world.robot.machine.calls mover).active = some .commConfig →
    world.history.visits = 1
  ticked : world.history.ticks ≠ [] → world.history.visits = 1

private theorem oneSession_of_kept {world : World} (kept : Kept world) : OneSession world where
  stays := kept.stays
  once := by
    by_cases never : world.history.visits = 0
    · rw [never]
      exact Nat.zero_le 1
    · exact Nat.le_of_eq (kept.visited (kept.stays never))
  entered := kept.ticked
  opened := by
    intro first head
    obtain ⟨-, before, once⟩ := kept.session.opened first head
    exact ⟨before.init first, once, rfl, rfl⟩
  unopened := fun none => (kept.session.fresh none).2.1
  single := kept.session.timed.single
  idled := kept.session.timed.idled

private theorem visits_moved (world : World) (robot : Robot) : (world.moved robot).history.visits =
    if robot.machine.currentState = .commConfig ∧ world.current ≠ .commConfig then
      world.history.visits + 1
    else world.history.visits := rfl

private theorem kept_moved {world : World} {event : States.Event} {robot : Robot}
    (kept : Kept world)
    (undisturbed : Undisturbed world.robot event)
    (moved : Robot.step world.robot event = some robot) : Kept (world.moved robot) := by
  obtain ⟨staying, onward⟩ := staying_step kept.staying undisturbed moved
  have still (visits : world.history.visits = 1) : (world.moved robot).history.visits = 1 := by
    have here : world.current = .commConfig := kept.stays (by omega)
    rw [visits_moved, if_neg fun entering => entering.2 here]
    exact visits
  have never (elsewhere : world.current ≠ .commConfig) : world.history.visits = 0 :=
    Decidable.not_not.mp fun visits => elsewhere (kept.stays visits)
  refine ⟨staying, session_moved kept.session robot, fun visits => ?_, fun here => ?_, ?_, ?_⟩
  · by_cases here : world.current = .commConfig
    · exact onward here
    · rw [visits_moved, never here] at visits
      split at visits
      · rename_i entering
        exact entering.1
      · contradiction
  · by_cases before : world.current = .commConfig
    · exact still (kept.visited before)
    · rw [visits_moved, if_pos ⟨here, before⟩, never before]
  · intro mover under
    obtain before | now := active_of_step moved under
    · exact still (kept.loaded mover before)
    · exact still (kept.visited now)
  · exact fun begun => still (kept.ticked begun)

private theorem kept_step {world next : World} {event : Event} (kept : Kept world)
    (undisturbed : world.Undisturbed event) (stepped : step world event = some next) :
    Kept next := by
  cases stepped_of_step stepped with
  | robot event robot moved => exact kept_moved kept undisturbed moved
  | ticked readings robot here onward moved =>
    have quiet : Undisturbed world.robot .act := trivial
    have after := kept_moved kept quiet moved
    have begun : (world.moved robot).history.visits = 1 := by
      rw [visits_moved]
      have loaded := kept.loaded .run (by rw [here]; rfl)
      rw [if_neg fun entering => entering.2 (kept.stays (by omega))]
      exact loaded
    exact ⟨after.staying, session_ticked after.session onward, after.stays, after.visited,
      after.loaded, fun _ => begun⟩
  | restarted uptimeMs onward =>
    have session := kept.session
    refine ⟨kept.staying, ⟨session.fresh, session.opened, ?_⟩, kept.stays, kept.visited,
      kept.loaded, kept.ticked⟩
    refine ⟨fun fresh => ?_, session.timed.single, session.timed.idled⟩
    obtain ⟨none, since⟩ := session.timed.unscheduled fresh
    refine ⟨none, fun begun => ?_⟩
    obtain ⟨latest, past, since⟩ := since begun
    exact ⟨latest, Nat.le_trans past onward, since⟩

private theorem kept_boot (mode : Robot.BootMode) (ready serial : Bool)
    (defined : Mover → StateName → Bool) : Kept (boot mode ready serial defined) where
  staying := staying_boot mode ready serial defined
  session := session_boot mode ready serial defined
  stays := by
    intro visits
    by_contra elsewhere
    exact visits (if_neg elsewhere)
  visited := fun here => if_pos here
  loaded := fun _ none => by contradiction
  ticked := fun begun => absurd rfl begun

/-- From any boot on, whatever the buttons, the requests, the lock and the two movers do:
as long as no request for another state is let through and no error is reported in
COMM_CONFIG, it runs one session that only the restart ends. -/
theorem one_menu_session {world : World} (mode : Robot.BootMode) (ready serial : Bool)
    (defined : Mover → StateName → Bool)
    (ran : run step (boot mode ready serial defined) events = some world)
    (undisturbed : Along step World.Undisturbed (boot mode ready serial defined) events) :
    OneSession world :=
  oneSession_of_kept (run_invariant_along kept_step (kept_boot mode ready serial defined)
    undisturbed ran)

/-- A call of `run` in COMM_CONFIG. -/
def runCall (readings : Readings) : List Event :=
  [.robot (.machine (.take .run)), .robot (.machine (.load .run)), .tick readings,
    .robot (.machine (.store .run)), .robot (.machine (.give .run))]

/-- A request for the state it is in, all buttons at once, and half a minute without
a press. -/
def abandoned : List Event :=
  runCall ⟨1000, 2, {}, {}, true, true⟩ ++ [.robot (.requestState .commConfig)] ++
    (nextCall [.readLock 7, .checkStorage, .checkFlashing, .cancelTests]).map .robot ++
    runCall ⟨31000, 2, {}, {}, true, true⟩ ++ [.restart 31500]

theorem one_menu_session_abandoned : ∃ world,
    run step (boot .commConfig true false everyCallback) abandoned = some world ∧
    world.rebooted = true ∧ OneSession world := by
  have ran : run step (boot .commConfig true false everyCallback) abandoned = some _ := rfl
  have undisturbed : Along step World.Undisturbed
      (boot .commConfig true false everyCallback) abandoned := by
    iterate 9 refine along_of_step trivial rfl ?_
    refine along_of_step (fun _ _ target requested => ?_) rfl ?_
    · cases requested
      rfl
    iterate 12 refine along_of_step trivial rfl ?_
    trivial
  exact ⟨_, ran, rfl, one_menu_session .commConfig true false everyCallback ran undisturbed⟩

/-- "state set WAIT" while the menu is open, and then "state set COMM_CONFIG". -/
def reentered : List Event :=
  runCall ⟨1000, 2, {}, {}, true, true⟩ ++ [.robot (.requestState .wait)] ++
    (nextCall [.readLock 0, .checkStorage, .checkFlashing, .cancelTests]).map .robot ++
    [.robot (.requestState .commConfig)] ++
    (nextCall [.readLock 0, .checkStorage, .checkFlashing, .cancelTests]).map .robot

/-- The robot leaves COMM_CONFIG without a restart, and comes back to it. -/
theorem left_by_request : ¬ ∀ (events : List Event) (world : World),
    run step (boot .commConfig true false everyCallback) events = some world →
      OneSession world := by
  intro every
  have twice := (every reentered _ rfl).once
  exact absurd twice (by decide)

end BallyOS.CommConfig
