import BallyOS.Command.Processor
import BallyOS.Library.Run

/-! Where the result of a command goes. A direct link (TCP, BLE, serial) has
sessions; a queued command carries the session generation read when it was
queued, and the shell task sends its result only while that generation is
still the link's. A ghost session number says which session a command really
came in, and a ghost count how often the generation was raised. -/
namespace BallyOS.Session
open Btp Command Library

def kCommandQueueLength : Nat := 10

/-- One direct link: the generation counter, and the session it stands for. -/
structure Direct where
  generation : UInt32
  raised : Nat
  current : Option Nat
  started : Nat
deriving DecidableEq

/-- `fetch_add` on the generation ends the session it stood for. -/
def Direct.raise (direct : Direct) : Direct :=
  { direct with
    generation := direct.generation + 1
    raised := direct.raised + 1
    current := none }

/-- The session that a successful start begins. -/
def Direct.begin (direct : Direct) : Direct :=
  { direct.raise with current := some direct.started, started := direct.started + 1 }

/-- Where the receive task of a link is with a command. -/
inductive Handling
  | idle
  | handedOut (session : Option Nat) (cacheSlot : Nat)
  | tagged (session : Option Nat) (cacheSlot : Nat) (generation : UInt32) (raised : Nat)
  | replying (session : Option Nat)
deriving DecidableEq

/-- `QueuedCommand`; the link stands for the from_tcp, from_ble and from_serial
flags and the generation for the one that goes with the flag. -/
structure QueuedCommand where
  cacheSlot : Nat
  link : Link
  generation : UInt32
  session : Option Nat
  raised : Nat
deriving DecidableEq

/-- One result handed to an endpoint, with the session its link had then. -/
structure Routed where
  via : Link
  origin : Link
  session : Option Nat
  current : Option Nat
deriving DecidableEq

structure World where
  direct : Link → Direct
  handling : Link → Handling
  queue : List QueuedCommand
  shell : Option QueuedCommand
  routed : List Routed

/-- How the start of a session ends. -/
inductive Start
  | started | noMemory | beginFailed
deriving Repr, DecidableEq

inductive Event
  | connect (link : Link) (outcome : Start)
  | disconnect (link : Link)
  | stop
  | receive (link : Link) (outcome : Intake)
  | tag (link : Link)
  | enqueue (link : Link) (rejected : Bool)
  | reply (link : Link)
  | take
  | finish (completed : Bool)
deriving DecidableEq

def World.initial : World where
  direct := fun _ => ⟨0, 0, none, 0⟩
  handling := fun _ => .idle
  queue := []
  shell := none
  routed := []

def World.setDirect (world : World) (link : Link) (direct : Direct) : World :=
  { world with direct := Function.update world.direct link direct }

def World.setHandling (world : World) (link : Link) (handling : Handling) : World :=
  { world with handling := Function.update world.handling link handling }

/-- `startTcpSession` and its siblings, with the callbacks of a failed start. -/
def Direct.start (direct : Direct) : Start → Direct
  | .started => direct.begin
  | .noMemory => direct.raise
  | .beginFailed => direct.raise.raise

/-- The endpoint a completed command's result is sent through, if any. -/
def route (world : World) (command : QueuedCommand) : Option Link :=
  if command.link = .espNow then some .espNow
  else if command.generation = (world.direct command.link).generation then some command.link
  else none

/-- Handing a result to a link's endpoint. -/
def World.send (world : World) (via origin : Link) (session : Option Nat) : World :=
  { world with routed := world.routed ++ [⟨via, origin, session, (world.direct via).current⟩] }

def step : Machine World Event := fun world event =>
  match event with
  | .connect link outcome =>
    if link ≠ .espNow ∧ world.handling link = .idle ∧ (world.direct link).current = none then
      some (world.setDirect link ((world.direct link).start outcome))
    else none
  | .disconnect link =>
    if link ≠ .espNow ∧ world.handling link = .idle then
      some (world.setDirect link (world.direct link).raise)
    else none
  -- the routine task stops the TCP server whatever its receive task is doing
  | .stop => some (world.setDirect .tcp (world.direct .tcp).raise)
  | .receive link outcome =>
    let session := (world.direct link).current
    if world.handling link = .idle ∧ (link = .espNow ∨ session.isSome) then
      some (world.setHandling link
        (match outcome with
          | .ready slot _ => .handedOut session slot
          | .resultReady _ => .replying session
          | _ => .idle))
    else none
  | .tag link =>
    match world.handling link with
    | .handedOut session slot => some (world.setHandling link
        (.tagged session slot (world.direct link).generation (world.direct link).raised))
    | _ => none
  | .enqueue link rejected =>
    match world.handling link with
    | .tagged session slot generation raised =>
      if world.queue.length < kCommandQueueLength then
        some { world.setHandling link .idle with
          queue := world.queue ++ [⟨slot, link, generation, session, raised⟩] }
      else some (world.setHandling link (if rejected then .replying session else .idle))
    | _ => none
  | .reply link =>
    match world.handling link with
    | .replying session => some ((world.send link link session).setHandling link .idle)
    | _ => none
  | .take =>
    match world.shell, world.queue with
    | none, command :: rest => some { world with shell := some command, queue := rest }
    | _, _ => none
  | .finish completed =>
    match world.shell with
    | none => none
    | some command =>
      match completed, route world command with
      | true, some via =>
        some { world.send via command.link command.session with shell := none }
      | _, _ => some { world with shell := none }

/-- A receive task that has read nothing of the generation yet, or has a reply
to send. -/
def Handling.Answering : Handling → Prop
  | .handedOut .. | .replying _ => True
  | _ => False

/-- The condition on a run. The TCP server is not stopped while its receive
task is between `intake` and reading the generation or sending a reply; a busy
reply is made only when nothing ended the session since the generation was
read; and the generations do not come around. -/
def Undisturbed (world : World) : Event → Prop
  | .connect link _ | .disconnect link => (world.direct link).raised + 2 < UInt32.size
  | .stop => ¬(world.handling .tcp).Answering ∧ (world.direct .tcp).raised + 2 < UInt32.size
  | .enqueue link rejected => rejected = true → kCommandQueueLength ≤ world.queue.length →
      ∀ session slot generation raised,
        world.handling link = .tagged session slot generation raised →
          (world.direct link).raised = raised
  | _ => True

/-- A generation that was read in a session: it is the link's generation only
if that session is still the current one. -/
structure Tagged (direct : Direct) (session : Option Nat) (generation : UInt32) (raised : Nat) :
    Prop where
  inSession : session.isSome
  generation : generation = UInt32.ofNat raised
  past : raised ≤ direct.raised
  still : raised = direct.raised → direct.current = session

/-- What is known of a receive task, when its link has sessions. -/
def Follows (direct : Direct) : Handling → Prop
  | .idle => True
  | .handedOut session _ | .replying session => session.isSome ∧ direct.current = session
  | .tagged session _ generation raised => Tagged direct session generation raised

/-- A result went back over its own link, in the session its command came in. -/
def InSession (routed : Routed) : Prop :=
  routed.via = routed.origin ∧
    (routed.origin ≠ .espNow → routed.session.isSome ∧ routed.current = routed.session)

structure Routes (world : World) : Prop where
  counted : ∀ link, (world.direct link).generation = UInt32.ofNat (world.direct link).raised ∧
    (world.direct link).raised < UInt32.size
  follows : ∀ link, link ≠ .espNow → Follows (world.direct link) (world.handling link)
  queued : ∀ command ∈ world.queue, command.link ≠ .espNow →
    Tagged (world.direct command.link) command.session command.generation command.raised
  shell : ∀ command, world.shell = some command → command.link ≠ .espNow →
    Tagged (world.direct command.link) command.session command.generation command.raised
  routed : ∀ routed ∈ world.routed, InSession routed

private theorem routes_initial : Routes World.initial where
  counted := fun _ => ⟨rfl, show 0 < UInt32.size by decide⟩
  follows := fun _ _ => trivial
  queued := by simp [World.initial]
  shell := by simp [World.initial]
  routed := by simp [World.initial]

/-- How a link's counter moved: it was raised at least once. -/
structure Raised (before after : Direct) : Prop where
  more : before.raised < after.raised
  generation : before.generation = UInt32.ofNat before.raised →
    after.generation = UInt32.ofNat after.raised
  atMost : after.raised ≤ before.raised + 2

private theorem raised_raise (direct : Direct) : Raised direct direct.raise := by
  refine ⟨Nat.lt_succ_self _, fun counted => ?_, Nat.le_succ _⟩
  simp only [Direct.raise, counted]
  exact (UInt32.ofNat_add direct.raised 1).symm

private theorem raised_start (direct : Direct) (outcome : Start) :
    Raised direct (direct.start outcome) := by
  obtain ⟨more, generation, _⟩ := raised_raise direct
  cases outcome with
  | started => exact ⟨more, generation, Nat.le_succ _⟩
  | noMemory => exact ⟨more, generation, Nat.le_succ _⟩
  | beginFailed =>
    obtain ⟨again, generationAgain, _⟩ := raised_raise direct.raise
    exact ⟨Nat.lt_trans more again, fun counted => generationAgain (generation counted),
      Nat.le_refl _⟩

/-- A generation read before the counter was raised is no longer the link's. -/
theorem tagged_raised (tagged : Tagged before session generation raised)
    (moved : Raised before after) : Tagged after session generation raised := by
  refine ⟨tagged.inSession, tagged.generation, ?_, ?_⟩
  · exact Nat.le_trans tagged.past (Nat.le_of_lt moved.more)
  · intro same
    have past := tagged.past
    have more := moved.more
    omega

/-- Raising a link's counter, while its receive task answers nothing. -/
theorem routes_raised (routes : Routes world) (moved : Raised (world.direct link) after)
    (bound : (world.direct link).raised + 2 < UInt32.size)
    (silent : link = .espNow ∨ ¬(world.handling link).Answering) :
    Routes (world.setDirect link after) := by
  have others : ∀ other, other ≠ link →
      (world.setDirect link after).direct other = world.direct other :=
    fun other elsewhere => Function.update_of_ne elsewhere ..
  have here : (world.setDirect link after).direct link = after := Function.update_self ..
  have kept : ∀ {other session generation raised},
      Tagged (world.direct other) session generation raised →
        Tagged ((world.setDirect link after).direct other) session generation raised := by
    intro other session generation raised tagged
    by_cases same : other = link
    · subst same
      exact here.symm ▸ tagged_raised tagged moved
    · exact (others other same).symm ▸ tagged
  refine { routes with counted := ?_, follows := ?_, queued := ?_, shell := ?_ }
  · intro other
    by_cases same : other = link
    · subst same
      rw [here]
      have few := moved.atMost
      exact ⟨moved.generation (routes.counted other).1, by omega⟩
    · rw [others other same]
      exact routes.counted other
  · intro other sessions
    have before := routes.follows other sessions
    show Follows _ (world.handling other)
    by_cases same : other = link
    · subst same
      cases handling : world.handling other with
      | idle => trivial
      | handedOut session slot | replying session =>
        rcases silent with radio | quiet
        · exact absurd radio sessions
        · exact absurd (show (world.handling other).Answering by rw [handling]; trivial) quiet
      | tagged session slot generation raised =>
        rw [handling] at before
        exact kept before
    · rw [others other same]
      exact before
  · exact fun command member sessions => kept (routes.queued command member sessions)
  · exact fun command running sessions => kept (routes.shell command running sessions)

private theorem routes_setHandling (routes : Routes world)
    (follows : link ≠ .espNow → Follows (world.direct link) handling) :
    Routes (world.setHandling link handling) := by
  refine { routes with follows := ?_ }
  intro other sessions
  by_cases same : other = link
  · subst same
    simpa [World.setHandling] using follows sessions
  · simpa [World.setHandling, Function.update_of_ne same] using routes.follows other sessions

/-- A result sent in the session its command came in. -/
theorem routes_send (routes : Routes world) (sessions : via ≠ .espNow →
    session.isSome ∧ (world.direct via).current = session) :
    Routes (world.send via via session) := by
  refine { routes with routed := ?_ }
  intro routed member
  rcases List.mem_append.mp member with old | new
  · exact routes.routed routed old
  · cases List.mem_singleton.mp new
    exact ⟨rfl, sessions⟩

/-- A generation that matches is one read in the session that is current. -/
theorem current_of_route (routes : Routes world)
    (tagged : command.link ≠ .espNow →
      Tagged (world.direct command.link) command.session command.generation command.raised)
    (routed : route world command = some via) :
    via = command.link ∧ (via ≠ .espNow →
      command.session.isSome ∧ (world.direct via).current = command.session) := by
  unfold route at routed
  split at routed
  · rename_i radio
    cases routed
    exact ⟨radio.symm, fun sessions => absurd rfl sessions⟩
  split at routed
  · rename_i direct matching
    cases routed
    refine ⟨rfl, fun sessions => ?_⟩
    obtain ⟨inSession, generation, past, still⟩ := tagged sessions
    obtain ⟨counted, bound⟩ := routes.counted command.link
    rw [generation, counted] at matching
    have same := congrArg UInt32.toNat matching
    rw [UInt32.toNat_ofNat_of_lt' (by omega), UInt32.toNat_ofNat_of_lt' bound] at same
    exact ⟨inSession, still same⟩
  · cases routed

private theorem routes_enqueue (routes : Routes world)
    (undisturbed : Undisturbed world (.enqueue link rejected))
    (stepped : step world (.enqueue link rejected) = some next) : Routes next := by
  simp only [step] at stepped
  split at stepped
  · rename_i session slot generation raised handling
    have tagged : link ≠ .espNow → Tagged (world.direct link) session generation raised := by
      intro sessions
      have follows := routes.follows link sessions
      rwa [handling] at follows
    split at stepped
    · cases stepped
      have idle : Routes (world.setHandling link .idle) :=
        routes_setHandling routes fun _ => trivial
      refine { idle with queued := ?_ }
      intro command member sessions
      rcases List.mem_append.mp member with old | new
      · exact routes.queued command old sessions
      · cases List.mem_singleton.mp new
        exact tagged sessions
    · rename_i full
      cases stepped
      refine routes_setHandling routes fun sessions => ?_
      cases rejected with
      | false => exact trivial
      | true =>
        have same := undisturbed rfl (Nat.not_lt.mp full) session slot generation raised handling
        exact ⟨(tagged sessions).inSession, (tagged sessions).still same.symm⟩
  · cases stepped

private theorem routes_receive (routes : Routes world)
    (stepped : step world (.receive link outcome) = some next) : Routes next := by
  simp only [step] at stepped
  split at stepped
  · rename_i ready
    cases stepped
    refine routes_setHandling routes fun sessions => ?_
    have inSession : (world.direct link).current.isSome :=
      ready.2.resolve_left sessions
    cases outcome with
    | ready slot command => exact ⟨inSession, rfl⟩
    | resultReady view => exact ⟨inSession, rfl⟩
    | duplicateInProgress | ignored => trivial
  · cases stepped

private theorem routes_finish (routes : Routes world)
    (stepped : step world (.finish completed) = some next) : Routes next := by
  simp only [step] at stepped
  split at stepped
  · cases stepped
  rename_i command running
  split at stepped
  · rename_i via routed
    cases stepped
    obtain ⟨rfl, sessions⟩ := current_of_route routes (routes.shell command running) routed
    exact { routes_send routes sessions with shell := by simp }
  · cases stepped
    exact { routes with shell := by simp }

private theorem routes_step (routes : Routes world) (undisturbed : Undisturbed world event)
    (stepped : step world event = some next) : Routes next := by
  cases event with
  | connect link outcome =>
    simp only [step] at stepped
    split at stepped <;> cases stepped
    rename_i ready
    refine routes_raised routes (raised_start _ outcome) undisturbed (.inr ?_)
    rw [ready.2.1]
    exact id
  | disconnect link =>
    simp only [step] at stepped
    split at stepped <;> cases stepped
    rename_i ready
    refine routes_raised routes (raised_raise _) undisturbed (.inr ?_)
    rw [ready.2]
    exact id
  | stop =>
    cases stepped
    exact routes_raised routes (raised_raise _) undisturbed.2 (.inr undisturbed.1)
  | receive link outcome => exact routes_receive routes stepped
  | tag link =>
    simp only [step] at stepped
    split at stepped <;> cases stepped
    rename_i session slot handling
    refine routes_setHandling routes fun sessions => ?_
    have follows := routes.follows link sessions
    rw [handling] at follows
    exact ⟨follows.1, (routes.counted link).1, Nat.le_refl _, fun _ => follows.2⟩
  | enqueue link rejected => exact routes_enqueue routes undisturbed stepped
  | reply link =>
    simp only [step] at stepped
    split at stepped <;> cases stepped
    rename_i session handling
    refine routes_setHandling (routes_send routes fun sessions => ?_) fun _ => trivial
    have follows := routes.follows link sessions
    rwa [handling] at follows
  | take =>
    simp only [step] at stepped
    split at stepped <;> cases stepped
    rename_i command rest free queued
    refine { routes with queued := ?_, shell := ?_ }
    · intro other member
      exact routes.queued other (queued ▸ List.mem_cons_of_mem _ member)
    · intro other running
      cases running
      exact routes.queued command (queued ▸ List.mem_cons_self)
  | finish completed => exact routes_finish routes stepped

/-- In a run that nothing disturbs, a result goes back over the link its command
came in on, and on a direct link only while that very session is current. -/
theorem results_stay_in_their_session (events : List Event) (world : World)
    (undisturbed : Along step Undisturbed World.initial events)
    (ran : run step World.initial events = some world) :
    ∀ routed ∈ world.routed, routed.via = routed.origin ∧
      (routed.origin ≠ .espNow → routed.session.isSome ∧ routed.current = routed.session) := by
  have routes : Routes world :=
    run_invariant_along (fun holds met stepped => routes_step holds met stepped)
      routes_initial undisturbed ran
  exact routes.routed

/-- A command over TCP is answered, and the one behind it is still queued when its session ends.
Its result comes when a new session is there, which has a command of its own answered. -/
def restartedTrace : List Event :=
  [.connect .tcp .started,
    .receive .tcp (.ready 0 []), .tag .tcp, .enqueue .tcp false, .take, .finish true,
    .receive .tcp (.ready 1 []), .tag .tcp, .enqueue .tcp false,
    .disconnect .tcp, .connect .tcp .started, .take, .finish true,
    .receive .tcp (.ready 2 []), .tag .tcp, .enqueue .tcp false, .take, .finish true]

theorem session_of_restarted_trace : ∃ world, run step World.initial restartedTrace = some world ∧
    world.routed = [⟨.tcp, .tcp, some 0, some 0⟩, ⟨.tcp, .tcp, some 1, some 1⟩] ∧
      ∀ routed ∈ world.routed, routed.current = routed.session := by
  have undisturbed : Along step Undisturbed World.initial restartedTrace := by
    refine along_of_step (show 0 + 2 < UInt32.size by decide) rfl ?_
    refine along_of_step trivial rfl (along_of_step trivial rfl (along_of_step nofun rfl ?_))
    refine along_of_step trivial rfl (along_of_step trivial rfl ?_)
    refine along_of_step trivial rfl (along_of_step trivial rfl (along_of_step nofun rfl ?_))
    refine along_of_step (show 1 + 2 < UInt32.size by decide) rfl ?_
    refine along_of_step (show 2 + 2 < UInt32.size by decide) rfl ?_
    refine along_of_step trivial rfl (along_of_step trivial rfl ?_)
    refine along_of_step trivial rfl (along_of_step trivial rfl (along_of_step nofun rfl ?_))
    exact along_of_step trivial rfl (along_of_step trivial rfl trivial)
  have stays := results_stay_in_their_session restartedTrace _ undisturbed rfl
  refine ⟨_, rfl, rfl, fun routed member => ?_⟩
  obtain ⟨-, same⟩ := stays routed member
  have direct : ∀ routed ∈ [(⟨.tcp, .tcp, some 0, some 0⟩ : Routed), ⟨.tcp, .tcp, some 1, some 1⟩],
      routed.origin ≠ .espNow := by decide
  exact (same (direct routed member)).2

/-- The server is stopped between `intake` and the reading of the generation. -/
def stoppedTrace : List Event :=
  [.connect .tcp .started, .receive .tcp (.ready 0 []), .stop, .tag .tcp, .enqueue .tcp false,
    .take, .finish true]

/-- The command of the stopped session is answered through the TCP endpoint
although no session is current. -/
theorem stopped_session_is_answered : ¬∀ events world,
    run step World.initial events = some world → ∀ routed ∈ world.routed,
      routed.origin ≠ .espNow → routed.current = routed.session := by
  intro every
  have same := every stoppedTrace _ rfl ⟨.tcp, .tcp, some 0, none⟩ List.mem_cons_self (by decide)
  cases same

end BallyOS.Session
