import BallyOS.Junkebox.LastCall

/-! A stop. It empties the mailbox and notifies the player, which ends what is
played at the wait the player is in, or at the next one, unless it comes between
the player's taking of a request and its discarding of notifications. -/
namespace BallyOS.Junkebox
open Library

variable {Task : Type}

/-- What the player has held of the request that it plays. -/
def Point.held : Point → List Tone
  | .tone _ held _ | .hold _ held _ _ | .silence _ held _ => held
  | _ => []

/-- The tone that the player is waiting out. -/
def Point.inHand : Point → Option Tone
  | .hold _ _ current _ => some current
  | _ => none

/-- The request that the player has taken and not yet put down. -/
def Point.request? : Point → Option PlayRequest
  | .drain request | .setPlaying request | .load request | .tone request _ _
  | .hold request _ _ _ | .silence request _ _ => some request
  | _ => none

/-- What is heard in the end of the request under way at a stop: what had been held then and at
most one more tone, which is cut short. The tone that was in hand is. -/
structure Stopped (point : Point) (entry : Heard) : Prop where
  request : point.request? = some entry.request
  held : point.held <+: entry.tones
  few : entry.tones.length ≤ point.held.length + 1
  cut : entry.whole = true → entry.tones = point.held
  inHand : ∀ tone, point.inHand = some tone →
    entry.tones = point.held ++ [tone] ∧ entry.whole = false

/-- Nothing is to be played but what is left until the next wait of the request under way. -/
def Stopping (point : Point) (earlier : List Heard) (system : System Task) : Prop :=
  system.mailbox = none ∧
  match system.point with
  | .starting | .drain _ => False
  | .receive | .clearPlaying => point.request? = none ∧ system.heard = earlier ∨
      ∃ entry, Stopped point entry ∧ system.heard = entry :: earlier
  | .setPlaying request | .load request => point.request? = some request ∧ point.held = [] ∧
      point.inHand = none ∧ system.heard = earlier ∧ system.notifications ≠ 0
  | .tone request held _ => point.request? = some request ∧ point.held = held ∧
      point.inHand = none ∧ system.heard = earlier ∧ system.notifications ≠ 0
  | .hold request held tone _ => point.request? = some request ∧ point.held = held ∧
      (∀ other, point.inHand = some other → other = tone) ∧ system.heard = earlier ∧
      system.notifications ≠ 0
  | .silence request held whole =>
    Stopped point ⟨request, system.loaded, held, whole⟩ ∧ system.heard = earlier

/-- A request that comes to its end of itself behind a stop had no wait left. -/
theorem stopped_of_over {point : Point} {tones : List Tone}
    (same : point.request? = some request) (held : point.held = tones)
    (free : point.inHand = none) :
    Stopped point ⟨request, file, tones, true⟩ where
  request := same
  held := held ▸ List.prefix_refl _
  few := held ▸ Nat.le_succ _
  cut _ := held.symm
  inHand tone there := by
    rw [free] at there
    cases there

private theorem stopping_advance {freq : Int → ℚ} {msToTicks : UInt32 → UInt32}
    {system next : System Task}
    (stopping : Stopping point earlier system)
    (stepped : advance freq msToTicks system answer = some next) :
    Stopping point earlier next := by
  obtain ⟨empty, stage⟩ := stopping
  cases advanced stepped with
  | begins here | discards here =>
    rw [here] at stage
    exact stage.elim
  | takes _ waits =>
    rw [empty] at waits
    cases waits
  | setsPlaying here | loads here | clearsPlaying here =>
    rw [here] at stage
    exact ⟨empty, stage⟩
  | finishes here | givesUp here =>
    rw [here] at stage
    obtain ⟨same, held, free, heard, -⟩ := stage
    exact ⟨empty, stopped_of_over same held free, heard⟩
  | holds here =>
    rw [here] at stage
    obtain ⟨same, held, free, heard, announced⟩ := stage
    refine ⟨empty, same, held, fun other there => ?_, heard, announced⟩
    rw [free] at there
    cases there
  | cuts here =>
    rw [here] at stage
    obtain ⟨same, heldThen, inHand, heard, announced⟩ := stage
    refine ⟨empty, ⟨same, ?_, ?_, nofun, fun other there => ?_⟩, heard⟩
    · rw [heldThen]
      exact List.prefix_append _ _
    · simp [heldThen]
    · rw [heldThen, inHand other there]
      exact ⟨rfl, rfl⟩
  | waits here quiet =>
    rw [here] at stage
    exact absurd quiet stage.2.2.2.2
  | silences here =>
    rw [here] at stage
    exact ⟨empty, .inr ⟨_, stage.1, by rw [stage.2]⟩⟩

/-- More notifications do no harm. -/
theorem stopping_notified {system : System Task} (calls : Task → Bool)
    (stopping : Stopping point earlier system) :
    Stopping point earlier
      { system with notifications := system.notifications + 1, calls := calls } := by
  obtain ⟨empty, stage⟩ := stopping
  refine ⟨empty, ?_⟩
  dsimp only
  cases here : system.point <;> rw [here] at stage
  case starting | drain | receive | clearPlaying | silence => exact stage
  case setPlaying | load | tone | hold =>
    exact ⟨stage.1, stage.2.1, stage.2.2.1, stage.2.2.2.1, Nat.succ_ne_zero _⟩

/-- How many accesses the player has before it at most, once a wait has no more to wait for. -/
def Point.left : Point → Nat
  | .starting | .drain _ => 7
  | .setPlaying _ => 6
  | .load _ => 5
  | .tone _ _ _ => 4
  | .hold _ _ _ _ => 3
  | .silence _ _ _ => 2
  | .clearPlaying => 1
  | .receive => 0

private theorem left_advance {freq : Int → ℚ} {msToTicks : UInt32 → UInt32}
    {system next : System Task}
    (stopping : Stopping point earlier system)
    (stepped : advance freq msToTicks system answer = some next) :
    next.point.left < system.point.left := by
  obtain ⟨empty, stage⟩ := stopping
  cases advanced stepped with
  | begins here | discards here =>
    rw [here] at stage
    exact stage.elim
  | takes _ waits =>
    rw [empty] at waits
    cases waits
  | waits here quiet =>
    rw [here] at stage
    exact absurd quiet stage.2.2.2.2
  | setsPlaying here | loads here | finishes here | givesUp here | holds here | cuts here
  | silences here | clearsPlaying here => simp [here, Point.left]

/-- In a wait the notification is there, so the player has always something to do but at rest. -/
theorem advances_of_stopping {freq : Int → ℚ} {msToTicks : UInt32 → UInt32} {system : System Task}
    (stopping : Stopping point earlier system) (busy : system.point ≠ .receive)
    (answer : Answer) : advance freq msToTicks system answer ≠ none := by
  have stage := stopping.2
  unfold advance
  split
  case h_2 here => exact absurd here busy
  case h_7 =>
    dsimp only
    split <;> nofun
  case h_8 here =>
    rw [here] at stage
    rw [if_pos stage.2.2.2.2]
    nofun
  all_goals nofun

private theorem heard_of_stopping {system : System Task} (stopping : Stopping point earlier system)
    :
    system.heard = earlier ∨ ∃ entry, Stopped point entry ∧ system.heard = entry :: earlier := by
  have stage := stopping.2
  cases here : system.point <;> rw [here] at stage
  case starting | drain => exact stage.elim
  case receive | clearPlaying => exact stage.imp And.right id
  case setPlaying | load | tone | hold => exact .inl stage.2.2.2.1
  case silence => exact .inl stage.2

private theorem stopping_run [DecidableEq Task] {freq : Int → ℚ} {msToTicks : UInt32 → UInt32}
    {start finish : System Task} (stopping : Stopping point earlier start) (uncalled : Over events)
    (ran : run (step freq msToTicks) start events = some finish) :
    Stopping point earlier finish ∧
      (events.filter Event.byPlayer).length + finish.point.left ≤ start.point.left := by
  induction events generalizing start with
  | nil =>
    cases ran
    exact ⟨stopping, by simp⟩
  | cons event rest ih =>
    obtain ⟨next, stepped, after⟩ := run_cons.mp ran
    have uncalledRest : Over rest :=
      fun event member => uncalled event (List.mem_cons_of_mem _ member)
    cases event with
    | player answer =>
      have less := left_advance stopping stepped
      obtain ⟨stopping, bound⟩ := ih (stopping_advance stopping stepped) uncalledRest after
      refine ⟨stopping, ?_⟩
      simp only [List.filter_cons, Event.byPlayer, if_true, List.length_cons]
      omega
    | notify task =>
      obtain ⟨calls, rfl⟩ := step_notify stepped
      obtain ⟨stopping, bound⟩ := ih (stopping_notified calls stopping) uncalledRest after
      exact ⟨stopping, bound⟩
    | play | stop => cases (uncalled _ List.mem_cons_self).1

/-- Outside of what it plays the player leaves the buzzer off. -/
def Quiet (system : System Task) : Prop :=
  match system.point with
  | .tone _ _ _ | .hold _ _ _ _ | .silence _ _ _ => True
  | _ => system.buzzer.on = false

private theorem quiet_step [DecidableEq Task] {freq : Int → ℚ} {msToTicks : UInt32 → UInt32}
    {system next : System Task} (quiet : Quiet system) (granted : event.granted = true)
    (stepped : step freq msToTicks system event = some next) : Quiet next := by
  cases event with
  | play | stop | notify =>
    obtain ⟨_, _, _, rfl⟩ := step_beside (by simp) stepped
    exact quiet
  | player answer =>
    simp only [Event.granted, Bool.and_eq_true] at granted
    unfold Quiet at quiet
    cases advanced stepped with
    | begins here | takes here | discards here | setsPlaying here | clearsPlaying here =>
      rw [here] at quiet
      exact quiet
    | loads | finishes | givesUp | holds | cuts | waits => trivial
    | silences => simp [Quiet, setTone, granted.2]

/-- Only calls put anything into the mailbox. -/
theorem empty_advance {freq : Int → ℚ} {msToTicks : UInt32 → UInt32} {system next : System Task}
    (empty : system.mailbox = none ∧ system.point ≠ .starting)
    (stepped : advance freq msToTicks system answer = some next) :
    next.mailbox = none ∧ next.point ≠ .starting := by
  cases advanced stepped with
  | takes => exact ⟨rfl, by simp⟩
  | _ => exact ⟨empty.1, by simp⟩

private theorem quiet_run [DecidableEq Task] {freq : Int → ℚ} {msToTicks : UInt32 → UInt32}
    {start finish : System Task} (quiet : Quiet start)
    (granted : ∀ event ∈ events, event.granted = true)
    (ran : run (step freq msToTicks) start events = some finish) : Quiet finish :=
  run_invariant_along (fun quiet met stepped => quiet_step quiet met stepped) quiet
    (along_of_mem (fun event member _ => granted event member) start) ran

section

variable [DecidableEq Task] (freq : Int → ℚ) (msToTicks : UInt32 → UInt32)

/-- The last call is a stop that is not announced between the taking of a request and the
discarding that comes behind it, whoever else notifies the player after it: nothing else is
started, at most one more tone is set, no wait is waited out, and after six accesses at most the
player is at rest with the buzzer silent. -/
theorem stop_ends_what_is_played {before emptied announcing told finish : System Task}
    (reached : run (step freq msToTicks) (.begun Task) events = some before)
    (granted : ∀ event ∈ events, event.granted = true) (ready : before.ready = true)
    (stopped : step freq msToTicks before (.stop task) = some emptied)
    (went : run (step freq msToTicks) emptied middle = some announcing) (uncalled : Over middle)
    (outside : ∀ request, announcing.point ≠ .drain request)
    (announced : step freq msToTicks announcing (.notify task) = some told)
    (after : run (step freq msToTicks) told rest = some finish) (uncalledAfter : Over rest) :
    finish.mailbox = none ∧
      (finish.heard = announcing.heard ∨ ∃ entry, Stopped announcing.point entry ∧
        finish.heard = entry :: announcing.heard) ∧
      (∀ entry ∈ finish.heard, entry.tones <+: tonesOf freq entry.request entry.file) ∧
      (rest.filter Event.byPlayer).length ≤ 6 ∧
      (finish.point ≠ .receive → ∀ answer, advance freq msToTicks finish answer ≠ none) ∧
      (finish.point = .receive → finish.buzzer.on = false ∧
        (announcing.point.request? ≠ none → ∃ entry, Stopped announcing.point entry ∧
          finish.heard = entry :: announcing.heard)) := by
  have ran : run (step freq msToTicks) (.begun Task)
      (events ++ .stop task :: (middle ++ .notify task :: rest)) = some finish :=
    run_append.mpr ⟨before, reached, run_cons.mpr ⟨emptied, stopped,
      run_append.mpr ⟨announcing, went, run_cons.mpr ⟨told, announced, after⟩⟩⟩⟩
  have begun : Begun before :=
    run_invariant begun_step (fun on => absurd on Bool.false_ne_true) reached
  have quiet : Quiet before := quiet_run (show Quiet (.begun Task) from rfl) granted reached
  have quietThen : Quiet emptied := quiet_step quiet rfl stopped
  have empty : emptied.mailbox = none ∧ emptied.point ≠ .starting := by
    simp only [step, ready] at stopped
    split at stopped
    · cases stopped
    · cases stopped
      exact ⟨rfl, begun ready⟩
  replace empty : announcing.mailbox = none ∧ announcing.point ≠ .starting :=
    run_over (fun empty _ => empty_advance empty) (fun _ => id) empty uncalled went
  have quietTold : Quiet told :=
    quiet_step (quiet_run quietThen (fun event member => (uncalled event member).2) went) rfl
      announced
  obtain ⟨mailbox, point, heard, notified⟩ : told.mailbox = announcing.mailbox ∧
      told.point = announcing.point ∧ told.heard = announcing.heard ∧ told.notifications ≠ 0 := by
    obtain ⟨_, rfl⟩ := step_notify announced
    exact ⟨rfl, rfl, rfl, Nat.succ_ne_zero _⟩
  have stopping : Stopping announcing.point announcing.heard told := by
    refine ⟨by rw [mailbox, empty.1], ?_⟩
    rw [point, heard]
    cases here : announcing.point with
    | starting => exact absurd here empty.2
    | drain request => exact absurd here (outside request)
    | receive | clearPlaying => exact .inl ⟨rfl, rfl⟩
    | setPlaying request | load request => exact ⟨rfl, rfl, rfl, rfl, notified⟩
    | tone request held left => exact ⟨rfl, rfl, rfl, rfl, notified⟩
    | hold request held tone left =>
      exact ⟨rfl, rfl, fun other there => (Option.some.inj there).symm, rfl, notified⟩
    | silence request held whole =>
      exact ⟨⟨rfl, List.prefix_refl _, Nat.le_succ _, fun _ => rfl, fun _ other => by cases other⟩,
        rfl⟩
  have few : told.point.left ≤ 6 := by
    rw [point]
    cases here : announcing.point with
    | starting => exact absurd here empty.2
    | drain request => exact absurd here (outside request)
    | _ => simp [Point.left]
  obtain ⟨stopping, bound⟩ := stopping_run stopping uncalledAfter after
  have quietEnd : Quiet finish :=
    quiet_run quietTold (fun event member => (uncalledAfter event member).2) after
  refine ⟨stopping.1, heard_of_stopping stopping,
    fun entry heard => ((performing_run ran).heard entry heard).front, by omega,
    advances_of_stopping stopping, fun rests => ⟨?_, fun under => ?_⟩⟩
  · rw [Quiet, rests] at quietEnd
    exact quietEnd
  · have stage := stopping.2
    rw [rests] at stage
    exact stage.resolve_left fun none => under none.1

end

private def stepsOf (accesses : Nat) : List (Event (Fin 2)) :=
  List.replicate accesses (.player {})

private def twoNotes : List UInt8 := ascii "A4,100\nA4,200\n"

private def twoNotesRequest : PlayRequest := .sdFile (ascii "/sdcard/a.txt")

/-- The player holds the first of two notes, and another caller has still to say that it
put the same request there. -/
private def heldNote (task other : Fin 2) : List (Event (Fin 2)) :=
  stepsOf 1 ++ [.play task twoNotesRequest, .play other twoNotesRequest] ++ stepsOf 1 ++
    [.notify task] ++ stepsOf 2 ++ [.player { file := some twoNotes }] ++ stepsOf 1

theorem stop_in_a_wait_ends_it : ∃ finish,
    run (step concertPitch id) (.begun (Fin 2))
      (heldNote 0 1 ++ [.stop 0, .notify 0, .notify 1] ++ stepsOf 3) = some finish ∧
      finish.mailbox = none ∧ finish.buzzer.on = false ∧
      finish.heard = [⟨twoNotesRequest, some twoNotes, [(440, 100)], false⟩] := by
  have begins : (run (step concertPitch id) (.begun (Fin 2)) (heldNote 0 1)).map (fun system =>
      (system.ready, system.calls 0, system.point, system.heard)) =
      some (true, false, .hold twoNotesRequest [] (440, 100) [(440, 200)], []) := by
    decide +kernel
  have ends : (run (step concertPitch id) (.begun (Fin 2))
      (heldNote 0 1 ++ ([.stop 0, .notify 0, .notify 1] ++ stepsOf 3))).map (fun system =>
        (system.point, system.heard.map (·.file))) = some (.receive, [some twoNotes]) := by
    decide +kernel
  obtain ⟨before, reached, seen⟩ := Option.map_eq_some_iff.mp begins
  obtain ⟨finish, ran, last⟩ := Option.map_eq_some_iff.mp ends
  simp only [Prod.mk.injEq] at seen last
  obtain ⟨ready, free, holds, nothing⟩ := seen
  obtain ⟨rests, files⟩ := last
  obtain ⟨_, same, onward⟩ := run_append.mp ran
  cases reached.symm.trans same
  obtain ⟨emptied, stopped, more⟩ := run_cons.mp onward
  obtain ⟨told, announced, after⟩ := run_cons.mp more
  have kept : emptied.point = before.point ∧ emptied.heard = before.heard := by
    simp only [step, free, ready] at stopped
    cases stopped
    exact ⟨rfl, rfl⟩
  obtain ⟨empty, -, -, -, -, done⟩ :=
    @stop_ends_what_is_played (Fin 2) _ concertPitch id (heldNote 0 1) 0 []
      (.notify 1 :: stepsOf 3)
      before emptied emptied told finish reached (by decide) ready stopped rfl (by decide)
      (by simp [kept.1, holds]) announced after (by decide)
  rw [kept.1, kept.2, holds, nothing] at done
  obtain ⟨silent, ended⟩ := done rests
  obtain ⟨⟨request, file, tones, whole⟩, stopped, heard⟩ := ended (by simp [Point.request?])
  obtain ⟨rfl, rfl⟩ := stopped.inHand (440, 100) rfl
  cases stopped.request
  rw [heard] at files
  cases files
  exact ⟨finish, ran, empty, silent, heard⟩

/-- A stop that is announced before the player has discarded is lost. -/
example : (run (step concertPitch id) (.begun (Fin 2))
    (stepsOf 1 ++ [.play 0 (.rawTone 440 250), .notify 0] ++ stepsOf 1 ++
      [.stop 0, .notify 0] ++
      stepsOf 7)).map (·.heard) = some [⟨.rawTone 440 250, none, [(440, 250)], true⟩] := by
  decide +kernel

end BallyOS.Junkebox
