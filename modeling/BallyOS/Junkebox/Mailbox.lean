import BallyOS.Junkebox.Player
import BallyOS.Library.Run

/-! The player's task and those who ask it to play or to stop. A request is put
into a mailbox for one, over what is there, and announced by a notification in
a second step. The player takes the request, discards the notifications that
have come so far, and plays until its notes are over or another notification
comes in a wait. -/
namespace BallyOS.Junkebox
open Library

inductive PlayRequest
  | sdFile (path : List UInt8)
  | builtin (notes : List UInt8)
  | rawTone (freqHz : UInt16) (durationMs : UInt32)
deriving Repr, DecidableEq

/-- A request that was played, with what the card gave when it was loaded, the tones that were
held, and whether all of them were. -/
structure Heard where
  request : PlayRequest
  file : Option (List UInt8)
  tones : List Tone
  whole : Bool
deriving Repr, DecidableEq

/-- How far `run_loop` has come, with the tones that were held and those to come. -/
inductive Point
  | starting
  | receive
  | drain (request : PlayRequest)
  | setPlaying (request : PlayRequest)
  | load (request : PlayRequest)
  | tone (request : PlayRequest) (held left : List Tone)
  | hold (request : PlayRequest) (held : List Tone) (tone : Tone) (left : List Tone)
  | silence (request : PlayRequest) (held : List Tone) (whole : Bool)
  | clearPlaying
deriving Repr, DecidableEq

structure Buzzer where
  freqHz : UInt16
  on : Bool
deriving Repr, DecidableEq

/-- `loaded` is what the card gave when the latest request was loaded, `heard` what was played,
the latest first; `calls` says who has still to notify the player. -/
structure System (Task : Type) where
  ready : Bool
  mailbox : Option PlayRequest
  notifications : Nat
  playing : Bool
  buzzer : Buzzer
  point : Point
  loaded : Option (List UInt8)
  calls : Task → Bool
  heard : List Heard

/-- What the timer, its channel and the card answer. -/
structure Answer where
  freqSet : Bool := true
  dutySet : Bool := true
  file : Option (List UInt8) := none
deriving Repr, DecidableEq

inductive Event (Task : Type)
  | play (task : Task) (request : PlayRequest)
  | stop (task : Task)
  | notify (task : Task)
  | player (answer : Answer)
deriving DecidableEq

/-- After `begin` has set the buzzer up. -/
def System.begun (Task : Type) : System Task where
  ready := false
  mailbox := none
  notifications := 0
  playing := false
  buzzer := ⟨440, false⟩
  point := .starting
  loaded := none
  calls := fun _ => false
  heard := []

/-- What a request asks for; a file that cannot be read asks for nothing. -/
def tonesOf (freq : Int → ℚ) : PlayRequest → Option (List UInt8) → List Tone
  | .sdFile _, none => []
  | .sdFile _, some bytes => song freq (untilNul (bytes.take (maxSongFileBytes - 1)))
  | .builtin notes, _ => song freq ((untilNul notes).take (maxSongFileBytes - 1))
  | .rawTone freqHz durationMs, _ => [(freqHz, durationMs)]

def PlayRequest.isRaw : PlayRequest → Bool
  | rawTone .. => true
  | _ => false

/-- Whether the tone was set, and the buzzer afterwards. -/
def setTone (buzzer : Buzzer) (freqHz : UInt16) (answer : Answer) : Bool × Buzzer :=
  if freqHz = 0 then
    (answer.dutySet, if answer.dutySet then { buzzer with on := false } else buzzer)
  else if !answer.freqSet then (false, buzzer)
  else (answer.dutySet, ⟨freqHz, buzzer.on || answer.dutySet⟩)

section

variable {Task : Type} (freq : Int → ℚ) (msToTicks : UInt32 → UInt32)

/-- The next access of the player; in a wait there is none before the time is up or a
notification has come. -/
def advance (system : System Task) (answer : Answer) : Option (System Task) :=
  match system.point with
  | .starting => some { system with ready := true, point := .receive }
  | .receive =>
    system.mailbox.map fun request => { system with mailbox := none, point := .drain request }
  | .drain request => some { system with notifications := 0, point := .setPlaying request }
  | .setPlaying request => some { system with playing := true, point := .load request }
  | .load request =>
    some { system with
      loaded := answer.file
      point := .tone request [] (tonesOf freq request answer.file) }
  | .tone request held [] => some { system with point := .silence request held true }
  | .tone request held (tone :: left) =>
    let (written, buzzer) := setTone system.buzzer tone.1 answer
    if request.isRaw ∧ written = false then
      some { system with buzzer, point := .silence request held true }
    else some { system with buzzer, point := .hold request held tone left }
  | .hold request held tone left =>
    if system.notifications ≠ 0 then
      some { system with notifications := 0, point := .silence request (held ++ [tone]) false }
    else if heldFor msToTicks tone.2 = none then none
    else some { system with point := .tone request (held ++ [tone]) left }
  | .silence request held whole =>
    some { system with
      buzzer := (setTone system.buzzer 0 answer).2
      heard := ⟨request, system.loaded, held, whole⟩ :: system.heard
      point := .clearPlaying }
  | .clearPlaying => some { system with playing := false, point := .receive }

variable [DecidableEq Task]

/-- Before the player is ready calls do nothing. -/
def step : Machine (System Task) (Event Task) := fun system event =>
  match event with
  | .play task request =>
    if system.calls task then none
    else if system.ready then
      some { system with mailbox := some request, calls := Function.update system.calls task true }
    else some system
  | .stop task =>
    if system.calls task then none
    else if system.ready then
      some { system with mailbox := none, calls := Function.update system.calls task true }
    else some system
  | .notify task =>
    if system.calls task then
      some { system with
        notifications := system.notifications + 1
        calls := Function.update system.calls task false }
    else none
  | .player answer => advance freq msToTicks system answer

end

/-- Everything an access of the player does, by where it is. -/
inductive Advanced {Task : Type} (freq : Int → ℚ) (msToTicks : UInt32 → UInt32)
    (system : System Task) (answer : Answer) : System Task → Prop
  | begins (here : system.point = .starting) :
    Advanced freq msToTicks system answer { system with ready := true, point := .receive }
  | takes {request : PlayRequest} (here : system.point = .receive)
      (waits : system.mailbox = some request) :
    Advanced freq msToTicks system answer { system with mailbox := none, point := .drain request }
  | discards {request : PlayRequest} (here : system.point = .drain request) :
    Advanced freq msToTicks system answer
      { system with notifications := 0, point := .setPlaying request }
  | setsPlaying {request : PlayRequest} (here : system.point = .setPlaying request) :
    Advanced freq msToTicks system answer { system with playing := true, point := .load request }
  | loads {request : PlayRequest} (here : system.point = .load request) :
    Advanced freq msToTicks system answer { system with
      loaded := answer.file
      point := .tone request [] (tonesOf freq request answer.file) }
  | finishes {request : PlayRequest} {held : List Tone}
      (here : system.point = .tone request held []) :
    Advanced freq msToTicks system answer { system with point := .silence request held true }
  | givesUp {request : PlayRequest} {held left : List Tone} {tone : Tone}
      (here : system.point = .tone request held (tone :: left)) (raw : request.isRaw = true)
      (refused : (setTone system.buzzer tone.1 answer).1 = false) :
    Advanced freq msToTicks system answer { system with
      buzzer := (setTone system.buzzer tone.1 answer).2
      point := .silence request held true }
  | holds {request : PlayRequest} {held left : List Tone} {tone : Tone}
      (here : system.point = .tone request held (tone :: left)) :
    Advanced freq msToTicks system answer { system with
      buzzer := (setTone system.buzzer tone.1 answer).2
      point := .hold request held tone left }
  | cuts {request : PlayRequest} {held left : List Tone} {tone : Tone}
      (here : system.point = .hold request held tone left) (notified : system.notifications ≠ 0) :
    Advanced freq msToTicks system answer
      { system with notifications := 0, point := .silence request (held ++ [tone]) false }
  | waits {request : PlayRequest} {held left : List Tone} {tone : Tone}
      (here : system.point = .hold request held tone left) (quiet : system.notifications = 0)
      (ends : heldFor msToTicks tone.2 ≠ none) :
    Advanced freq msToTicks system answer
      { system with point := .tone request (held ++ [tone]) left }
  | silences {request : PlayRequest} {held : List Tone} {whole : Bool}
      (here : system.point = .silence request held whole) :
    Advanced freq msToTicks system answer { system with
      buzzer := (setTone system.buzzer 0 answer).2
      heard := ⟨request, system.loaded, held, whole⟩ :: system.heard
      point := .clearPlaying }
  | clearsPlaying (here : system.point = .clearPlaying) :
    Advanced freq msToTicks system answer { system with playing := false, point := .receive }

theorem advanced {Task : Type} {freq : Int → ℚ} {msToTicks : UInt32 → UInt32}
    {system next : System Task} {answer : Answer}
    (stepped : advance freq msToTicks system answer = some next) :
    Advanced freq msToTicks system answer next := by
  unfold advance at stepped
  split at stepped
  case h_1 here => cases stepped; exact .begins here
  case h_2 here =>
    obtain ⟨request, waits, rfl⟩ := Option.map_eq_some_iff.mp stepped
    exact .takes here waits
  case h_3 here => cases stepped; exact .discards here
  case h_4 here => cases stepped; exact .setsPlaying here
  case h_5 here => cases stepped; exact .loads here
  case h_6 here => cases stepped; exact .finishes here
  case h_7 here =>
    dsimp only at stepped
    split at stepped
    · rename_i failed
      cases stepped
      exact .givesUp here failed.1 failed.2
    · cases stepped
      exact .holds here
  case h_8 here =>
    split at stepped
    · rename_i notified
      cases stepped
      exact .cuts here notified
    · rename_i quiet
      split at stepped
      · cases stepped
      · rename_i ends
        cases stepped
        exact .waits here (Decidable.not_not.mp quiet) ends
  case h_9 here => cases stepped; exact .silences here
  case h_10 here => cases stepped; exact .clearsPlaying here

/-! ### Access by access as in one go -/

/-- The tones of a request were held one after the other, those of a text up to the first
notification. -/
structure Performed (freq : Int → ℚ) (entry : Heard) : Prop where
  front : entry.tones <+: tonesOf freq entry.request entry.file
  text : entry.request.isRaw = false → ∃ notified,
    performed notified 0 (tonesOf freq entry.request entry.file) = (entry.tones, !entry.whole)

structure Performing {Task : Type} (freq : Int → ℚ) (system : System Task) : Prop where
  heard : ∀ entry ∈ system.heard, Performed freq entry
  tone : ∀ request held left, system.point = .tone request held left →
    held ++ left = tonesOf freq request system.loaded
  hold : ∀ request held tone left, system.point = .hold request held tone left →
    held ++ tone :: left = tonesOf freq request system.loaded
  silence : ∀ request held whole, system.point = .silence request held whole →
    Performed freq ⟨request, system.loaded, held, whole⟩

section

variable {Task : Type} {freq : Int → ℚ} {msToTicks : UInt32 → UInt32}

private theorem performing_begun (freq : Int → ℚ) : Performing freq (.begun Task) where
  heard := nofun
  tone := nofun
  hold := nofun
  silence := nofun

private theorem performed_of_whole {request : PlayRequest} {held : List Tone}
    (tones : held ++ [] = tonesOf freq request file) :
    Performed freq ⟨request, file, held, true⟩ := by
  rw [List.append_nil] at tones
  refine ⟨tones ▸ List.prefix_refl _, fun _ => ⟨fun _ => false, ?_⟩⟩
  dsimp only
  rw [← tones]
  exact performed_of_quiet fun _ _ _ => rfl

private theorem performed_of_cut {request : PlayRequest} {held left : List Tone} {tone : Tone}
    (tones : held ++ tone :: left = tonesOf freq request file) :
    Performed freq ⟨request, file, held ++ [tone], false⟩ := by
  have cut := @performed_of_first (fun index => decide (index = held.length)) _ 0
    (held ++ tone :: left) held.length (by simp)
    (fun earlier before => by simp [Nat.ne_of_lt before]) (by simp)
  rw [List.take_append, List.take_of_length_le (Nat.le_succ _)] at cut
  refine ⟨⟨left, by simpa using tones⟩, fun _ => ⟨fun index => decide (index = held.length), ?_⟩⟩
  dsimp only
  rw [← tones]
  simpa using cut

/-- A raw tone that cannot be set is not held. -/
theorem performed_of_failed {request : PlayRequest} {held left : List Tone} {tone : Tone}
    (tones : held ++ tone :: left = tonesOf freq request file) (raw : request.isRaw = true) :
    Performed freq ⟨request, file, held, true⟩ where
  front := ⟨tone :: left, tones⟩
  text song := by
    rw [raw] at song
    cases song

private theorem performing_advance {system next : System Task} (performing : Performing freq system)
    (stepped : advance freq msToTicks system answer = some next) : Performing freq next := by
  obtain ⟨heard, atTone, atHold, atSilence⟩ := performing
  cases advanced stepped with
  | loads =>
    refine ⟨heard, fun _ _ _ same => ?_, nofun, nofun⟩
    cases same
    rfl
  | finishes here =>
    refine ⟨heard, nofun, nofun, fun _ _ _ same => ?_⟩
    cases same
    exact performed_of_whole (atTone _ _ _ here)
  | givesUp here raw =>
    refine ⟨heard, nofun, nofun, fun _ _ _ same => ?_⟩
    cases same
    exact performed_of_failed (atTone _ _ _ here) raw
  | holds here =>
    refine ⟨heard, nofun, fun _ _ _ _ same => ?_, nofun⟩
    cases same
    exact atTone _ _ _ here
  | cuts here =>
    refine ⟨heard, nofun, nofun, fun _ _ _ same => ?_⟩
    cases same
    exact performed_of_cut (atHold _ _ _ _ here)
  | waits here =>
    refine ⟨heard, fun _ _ _ same => ?_, nofun, nofun⟩
    cases same
    simpa using atHold _ _ _ _ here
  | silences here =>
    exact ⟨List.forall_mem_cons.mpr ⟨atSilence _ _ _ here, heard⟩, nofun, nofun, nofun⟩
  | begins | takes | discards | setsPlaying | clearsPlaying => exact ⟨heard, nofun, nofun, nofun⟩

theorem step_notify [DecidableEq Task] {system next : System Task}
    (stepped : step freq msToTicks system (.notify task) = some next) :
    ∃ calls, next = { system with notifications := system.notifications + 1, calls } := by
  simp only [step] at stepped
  split at stepped <;> cases stepped
  exact ⟨_, rfl⟩

/-- What callers do reaches the mailbox and the notifications only. -/
theorem step_beside [DecidableEq Task] {system next : System Task}
    (caller : ∀ answer, event ≠ .player answer)
    (stepped : step freq msToTicks system event = some next) :
    ∃ mailbox notifications calls, next = { system with mailbox, notifications, calls } := by
  cases event with
  | play task request | stop task =>
    simp only [step] at stepped
    split at stepped
    · cases stepped
    · split at stepped <;> cases stepped <;> exact ⟨_, _, _, rfl⟩
  | notify task =>
    obtain ⟨_, rfl⟩ := step_notify stepped
    exact ⟨_, _, _, rfl⟩
  | player answer => exact absurd rfl (caller answer)

private theorem performing_step [DecidableEq Task] {system next : System Task}
    (performing : Performing freq system) (stepped : step freq msToTicks system event = some next) :
    Performing freq next := by
  cases event with
  | player answer => exact performing_advance performing stepped
  | play | stop | notify =>
    obtain ⟨_, _, _, rfl⟩ := step_beside (by simp) stepped
    exact { performing with }

theorem performing_run [DecidableEq Task] {system : System Task}
    (reached : run (step freq msToTicks) (.begun Task) events = some system) :
    Performing freq system :=
  run_invariant performing_step (performing_begun freq) reached

end

end BallyOS.Junkebox
