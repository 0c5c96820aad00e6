import BallyOS.Junkebox.Mailbox

/-! What becomes of the last call. A request is not lost to one before it. It is
played to its end, unless a notification comes between the player's discarding
of those before and the end of its last wait. -/
namespace BallyOS.Junkebox
open Library

variable {Task : Type}

def Event.isCall : Event Task → Bool
  | .play _ _ | .stop _ => true
  | .notify _ | .player _ => false

/-- What was asked of the buzzer was done. -/
def Event.granted : Event Task → Bool
  | .player answer => answer.freqSet && answer.dutySet
  | _ => true

/-- Nobody calls any more, though callers may still notify, and the buzzer obeys the player. -/
def Over (events : List (Event Task)) : Prop :=
  ∀ event ∈ events, event.isCall = false ∧ event.granted = true

instance (events : List (Event Task)) : Decidable (Over events) :=
  inferInstanceAs (Decidable (∀ event ∈ events, _))

def Event.byPlayer : Event Task → Bool
  | .player _ => true
  | _ => false

/-- The player is on its own. -/
def Alone (events : List (Event Task)) : Prop := ∀ event ∈ events, event.byPlayer = true

instance (events : List (Event Task)) : Decidable (Alone events) :=
  inferInstanceAs (Decidable (∀ event ∈ events, _))

section

variable [DecidableEq Task] {freq : Int → ℚ} {msToTicks : UInt32 → UInt32}
  {invariant : System Task → Prop}

/-- What the player's accesses and notifications keep, a run without calls keeps. -/
theorem run_over
    (keeps : ∀ {system next : System Task} {answer : Answer}, invariant system →
      (answer.freqSet = true ∧ answer.dutySet = true) →
      advance freq msToTicks system answer = some next → invariant next)
    (notified : ∀ {system : System Task} (calls : Task → Bool), invariant system →
      invariant { system with notifications := system.notifications + 1, calls := calls })
    (holds : invariant start) (uncalled : Over events)
    (ran : run (step freq msToTicks) start events = some finish) : invariant finish := by
  have met : Along (step freq msToTicks)
      (fun _ event => event.isCall = false ∧ event.granted = true) start events :=
    along_of_mem (fun event member _ => uncalled event member) start
  refine run_invariant_along (fun held met stepped => ?_) holds met ran
  rename_i system event next
  cases event with
  | player answer => exact keeps held (by simpa [Event.granted] using met.2) stepped
  | notify task =>
    obtain ⟨calls, rfl⟩ := step_notify stepped
    exact notified calls held
  | play | stop => cases met.1

end

/-! ### A request that was taken -/

/-- The tones of a request that were held, from the first on: all of them if it was played whole,
and where it was cut short, that was in a tone. -/
structure Front (freq : Int → ℚ) (request : PlayRequest) (file : Option (List UInt8))
    (tones : List Tone) (whole : Bool) : Prop where
  front : tones <+: tonesOf freq request file
  all : whole = true → tones = tonesOf freq request file
  cut : whole = false → tones ≠ []

/-- The request was taken, after `before` had been played. -/
def Playing (freq : Int → ℚ) (request : PlayRequest) (before : List Heard) (system : System Task) :
    Prop :=
  match system.point with
  | .starting => False
  | .drain taken | .setPlaying taken | .load taken => taken = request ∧ system.heard = before
  | .tone taken held left => taken = request ∧ system.heard = before ∧
      held ++ left = tonesOf freq request system.loaded
  | .hold taken held tone left => taken = request ∧ system.heard = before ∧
      held ++ tone :: left = tonesOf freq request system.loaded
  | .silence taken held whole => taken = request ∧ system.heard = before ∧
      Front freq request system.loaded held whole
  | .clearPlaying | .receive => ∃ file tones whole, Front freq request file tones whole ∧
      system.heard = ⟨request, file, tones, whole⟩ :: before

/-- How many tones of its request the player has been through, where a notification may still cut
it short. -/
def Point.through : Point → Option Nat
  | .setPlaying _ | .load _ => some 0
  | .tone _ held _ | .hold _ held _ _ | .silence _ held _ => some held.length
  | .starting | .receive | .drain _ | .clearPlaying => none

/-- No notification has come that would cut the request short. -/
def Unhurt (freq : Int → ℚ) (request : PlayRequest) (before : List Heard) (system : System Task) :
    Prop :=
  match system.point with
  | .starting | .drain _ => True
  | .setPlaying _ | .load _ | .tone _ _ _ | .hold _ _ _ _ => system.notifications = 0
  | .silence _ _ whole => whole = true
  | .clearPlaying | .receive =>
    ∃ file, system.heard = ⟨request, file, tonesOf freq request file, true⟩ :: before

/-- The request still waits for the player, and at most one other is played before it. -/
def Waiting (request : PlayRequest) (earlier : List Heard) (system : System Task) : Prop :=
  system.mailbox = some request ∧ system.point ≠ .starting ∧
    (system.heard = earlier ∨ (system.point = .clearPlaying ∨ system.point = .receive) ∧
      ∃ entry, system.heard = entry :: earlier)

/-- Nothing was played behind `earlier`, or one request. -/
def AtMostOneMore (earlier before : List Heard) : Prop :=
  before = earlier ∨ ∃ entry, before = entry :: earlier

/-- It was announced in time, and nothing else has come that would cut it short. -/
def Sound (freq : Int → ℚ) (request : PlayRequest) (earlier : List Heard) (system : System Task) :
    Prop :=
  Waiting request earlier system ∨ system.mailbox = none ∧
    ∃ before, AtMostOneMore earlier before ∧ Playing freq request before system ∧
      Unhurt freq request before system

/-- The player is ready only once it has begun. -/
def Begun (system : System Task) : Prop := system.ready = true → system.point ≠ .starting

theorem begun_step [DecidableEq Task] {freq : Int → ℚ} {msToTicks : UInt32 → UInt32}
    {system next : System Task} (begun : Begun system)
    (stepped : step freq msToTicks system event = some next) : Begun next := by
  cases event with
  | play | stop | notify =>
    obtain ⟨_, _, _, rfl⟩ := step_beside (by simp) stepped
    exact begun
  | player answer =>
    cases advanced stepped <;> exact fun _ same => by cases same

section

variable [DecidableEq Task] (freq : Int → ℚ) (msToTicks : UInt32 → UInt32)

end

private def onItsOwn (accesses : Nat) : List (Event (Fin 2)) :=
  List.replicate accesses (.player {})

/-- The player holds a tone that somebody asked for. -/
private def holding : List (Event (Fin 2)) :=
  onItsOwn 1 ++ [.play 0 (.rawTone 440 250)] ++ onItsOwn 1 ++ [.notify 0] ++ onItsOwn 4

/-- A caller that is held up between its two steps cuts its own request short. -/
example : (run (step concertPitch id) (.begun (Fin 2))
    (onItsOwn 1 ++ [.play 0 (.rawTone 440 250)] ++ onItsOwn 5 ++ [.notify 0] ++ onItsOwn 3)).map
      (·.heard) = some [⟨.rawTone 440 250, none, [(440, 250)], false⟩] := by
  decide +kernel

end BallyOS.Junkebox
