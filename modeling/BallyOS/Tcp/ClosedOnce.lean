import BallyOS.Tcp.Sockets

/-! Whatever the two threads do between each other's accesses, a descriptor of
the server is in one slot at a time, so it is closed once and while it is the
server's own, and when the server is off none is left open. -/
namespace BallyOS.Tcp.Sockets
open Library Flags

namespace Point

/-- Nothing is in the thread's hand. -/
def handless : Point → Bool
  | casClient | casPending | bindListen | createMutex | publishListen | close _ => false
  | _ => true

/-- The loop is over and the client's slot was emptied for good. -/
def clientGone : Point → Bool
  | off => true
  | exchangePending next | close next => next.clientGone
  | _ => false

def pendingGone : Point → Bool
  | off => true
  | exchangeClient next | close next => next.pendingGone
  | _ => false

/-- Points at which `run` has just looked at a slot, for its next access. -/
def looks : Point → Bool
  | watchClient | watchPending | select | recvActive | drainSend | recvPending | sendReply => true
  | _ => false

/-- Points of `run`, which looks at its slots again after every close. -/
def runs : Point → Bool
  | exchangeClient next | exchangePending next | close next => next.runs && !next.looks
  | socket | bindListen | createMutex | publishListen | setRunning | createTask | clearRunning
  | exchangeRunning | waitTask | takeListen _ => false
  | _ => true

/-- Steps of `run` within its loop. -/
def goes (point next : Point) : Bool :=
  (!next.handless || point.handless) && !next.clientGone && !next.pendingGone && next.runs

/-- Points of `start`, where there is no task. -/
def starts : Point → Bool
  | socket | bindListen | createMutex | publishListen | setRunning | createTask | clearRunning
  | takeListen off | close off => true
  | _ => false

/-- Points of `stop`, which ends by waiting for the task. -/
def stops : Point → Bool
  | waitTask => true
  | takeListen next | exchangeClient next | exchangePending next | close next => next.stops
  | _ => false

/-- Points of the caller at which the server may be running. -/
def quiet : Point → Bool
  | off | exchangeRunning | createTask | clearRunning => true
  | _ => false

/-- Points of `run` at which it has not looked at the listener. -/
def unlistened : Point → Bool
  | off | head | watchListen => true
  | _ => false

end Point

/-- What a thread's point says of the slots, and of the other thread. -/
structure Fits (system : System) : Prop where
  handless : ∀ thread, (system.point thread).handless = true → system.slots (.hand thread) = none
  clientGone : (system.point .run).clientGone = true → system.slots .client = none
  pendingGone : (system.point .run).pendingGone = true → system.slots .pending = none
  runs : (system.point .run).runs = true
  calls : system.point .caller = .off ∨ system.point .caller = .exchangeRunning ∨
    (system.point .caller).starts = true ∨ (system.point .caller).stops = true
  quiet : system.running = true → (system.point .caller).quiet = true
  armed : system.point .caller = .createTask → system.running = true
  fresh : (system.point .caller).starts = true → system.point .run = .off
  served : system.point .run ≠ .off →
    system.running = true ∨ (system.point .caller).stops = true
  listened : system.slots .listen ≠ none → system.running = true ∨
    system.point .caller = .setRunning ∨ ∃ next, system.point .caller = .takeListen next

/-- The descriptors that `run` gives to the kernel next. -/
def System.uses (system : System) : List Nat :=
  match system.point .run with
  | .select => system.watched
  | .accept => system.listenSeen.toList
  | .recvActive | .drainSend | .recvPending | .sendReply => system.seen.toList
  | _ => []

/-- While the server runs, what `run` has in its variables is still in the slots. -/
structure Sees (system : System) : Prop where
  listen : (system.point .run).unlistened = false → system.listenSeen = system.slots .listen
  active : system.point .run = .recvActive ∨ system.point .run = .drainSend →
    system.seen = system.slots .client
  pending : system.point .run = .recvPending ∨ system.point .run = .sendReply →
    system.seen = system.slots .pending
  watched : system.point .run = .watchClient ∨ system.point .run = .watchPending ∨
      system.point .run = .select →
    ∀ descriptor ∈ system.watched, ∃ slot, system.slots slot = some descriptor

structure Kept (system : System) : Prop where
  owns : Owns system.table .server system.slots
  fits : Fits system
  sees : system.running = true → Sees system

private theorem kept_off {table : Table Owner}
    (foreign : ∀ descriptor, table descriptor ≠ some .server) :
    Kept (.off table) where
  owns := owns_nothing table .server foreign
  fits := ⟨fun _ _ => rfl, fun _ => rfl, fun _ => rfl, rfl, .inl rfl, nofun, nofun, nofun,
    fun on => absurd rfl on, fun held => absurd rfl held⟩
  sees := nofun

/-! ### Steps of the server's task -/

/-- The task leaves the listener, the caller and the running alone. -/
theorem fits_run {system next : System} (fits : Fits system) (on : system.point .run ≠ .off)
    (running : next.running = system.running)
    (caller : next.point .caller = system.point .caller)
    (listen : next.slots .listen = system.slots .listen)
    (hand : next.slots (.hand .caller) = system.slots (.hand .caller))
    (handless : (next.point .run).handless = true → next.slots (.hand .run) = none)
    (clientGone : (next.point .run).clientGone = true → next.slots .client = none)
    (pendingGone : (next.point .run).pendingGone = true → next.slots .pending = none)
    (runs : (next.point .run).runs = true) : Fits next where
  handless thread := by
    cases thread with
    | run => exact handless
    | caller =>
      rw [caller, hand]
      exact fits.handless .caller
  clientGone := clientGone
  pendingGone := pendingGone
  runs := runs
  calls := by
    rw [caller]
    exact fits.calls
  quiet := by
    rw [caller, running]
    exact fits.quiet
  armed := by
    rw [caller, running]
    exact fits.armed
  fresh starting := by
    rw [caller] at starting
    exact absurd (fits.fresh starting) on
  served _ := by
    rw [caller, running]
    exact fits.served on
  listened := by
    rw [caller, running, listen]
    exact fits.listened

/-- What `run` sees where it has not just looked at a slot. -/
theorem sees_plain {system next : System} (kept : Kept system) (running : system.running = true)
    (listened : (system.point .run).unlistened = false)
    (listenSeen : next.listenSeen = system.listenSeen)
    (listen : next.slots .listen = system.slots .listen)
    (plain : (next.point .run).looks = false) : Sees next where
  listen _ := by
    rw [listenSeen, listen]
    exact (kept.sees running).listen listened
  active at_ := by
    rcases at_ with here | here <;> rw [here] at plain <;> cases plain
  pending at_ := by
    rcases at_ with here | here <;> rw [here] at plain <;> cases plain
  watched at_ := by
    rcases at_ with here | here | here <;> rw [here] at plain <;> cases plain

private theorem on_of_listened {system : System} (listened : (system.point .run).unlistened = false)
    :
    system.point .run ≠ .off := by
  intro off
  rw [off] at listened
  cases listened

/-- A step of the task that only goes on, with other contents of its variables. -/
theorem kept_goto {system next : System} (kept : Kept system) (on : system.point .run ≠ .off)
    {point : Point} (goes : (system.point .run).goes point = true)
    (moves : next.point = Function.update system.point .run point)
    (table : next.table = system.table) (slots : next.slots = system.slots)
    (running : next.running = system.running) (sees : system.running = true → Sees next) :
    Kept next where
  owns := by
    rw [table, slots]
    exact kept.owns
  fits := by
    have here : next.point .run = point := by rw [moves, Function.update_self]
    have there : next.point .caller = system.point .caller := by
      rw [moves, Function.update_of_ne (by decide)]
    simp only [Point.goes, Bool.and_eq_true, Bool.or_eq_true, Bool.not_eq_true'] at goes
    obtain ⟨⟨⟨hand, clientStays⟩, pendingStays⟩, runs⟩ := goes
    refine fits_run kept.fits on running there (by rw [slots]) (by rw [slots]) ?_ ?_ ?_ ?_
    · rw [here, slots]
      intro free
      exact kept.fits.handless .run (hand.resolve_left (by simp [free]))
    · rw [here, clientStays]
      nofun
    · rw [here, pendingStays]
      nofun
    · rwa [here]
  sees on := sees (running ▸ on)

/-- A step of the task within its loop, after which it has not just looked at a slot. -/
theorem kept_loop {system next : System} (kept : Kept system)
    (listened : (system.point .run).unlistened = false) {point : Point}
    (goes : (system.point .run).goes point = true) (plain : point.looks = false)
    (moves : next.point = Function.update system.point .run point)
    (table : next.table = system.table) (slots : next.slots = system.slots)
    (running : next.running = system.running) (listenSeen : next.listenSeen = system.listenSeen) :
    Kept next := by
  refine kept_goto kept (on_of_listened listened) goes moves table slots running fun on =>
    sees_plain kept on listened listenSeen (by rw [slots]) ?_
  rwa [moves, Function.update_self]

/-- The task carries a descriptor from one place to another, or nothing. -/
theorem kept_move {system : System} (kept : Kept system)
    (listened : (system.point .run).unlistened = false) {source target : Slot} {point : Point}
    (apart : source ≠ target) (fromTask : source ≠ .listen ∧ source ≠ .hand .caller)
    (toTask : target ≠ .listen ∧ target ≠ .hand .caller) (empty : system.slots target = none)
    (handless : point.handless = true → source = .hand .run)
    (clientGone : point.clientGone = true → (transferred system.slots source target) .client = none)
    (pendingGone : point.pendingGone = true →
      (transferred system.slots source target) .pending = none)
    (runs : point.runs = true) (plain : point.looks = false) :
    Kept ((system.move source target).goto .run point) where
  owns := owns_transferred kept.owns apart empty
  fits := by
    refine fits_run kept.fits (on_of_listened listened) rfl ?_
      (transferred_of_ne fromTask.1.symm toTask.1.symm)
      (transferred_of_ne fromTask.2.symm toTask.2.symm)
      ?_ ?_ ?_ ?_ <;> simp only [System.goto, Function.update_self]
    · exact Function.update_of_ne (by decide) ..
    · intro free
      rw [← handless free]
      exact transferred_source apart
    · exact clientGone
    · exact pendingGone
    · exact runs
  sees on := sees_plain kept on listened rfl (transferred_of_ne fromTask.1.symm toTask.1.symm)
    (by simpa [System.goto])

/-- The task takes what is in a slot, to close it. -/
theorem kept_taken {system : System} (kept : Kept system) {slot : Slot} {point next : Point}
    (here : system.point .run = point) (free : point.handless = true)
    (listened : point.unlistened = false) (source : slot = .client ∨ slot = .pending)
    (client : slot ≠ .client → next.clientGone = true → point.clientGone = true)
    (pending : slot ≠ .pending → next.pendingGone = true → point.pendingGone = true)
    (runs : next.runs = true) (plain : next.looks = false) :
    Kept ((system.move slot (.hand .run)).goto .run (.close next)) := by
  have empty : system.slots (.hand .run) = none := kept.fits.handless .run (by rwa [here])
  have hands : ∀ thread, slot ≠ .hand thread := by
    rcases source with rfl | rfl <;> exact fun thread => nofun
  refine kept_move kept (by rwa [here]) (hands .run) ⟨?_, hands .caller⟩ ⟨nofun, nofun⟩ empty nofun
    (fun gone => ?_) (fun gone => ?_) ?_ rfl
  · rcases source with rfl | rfl <;> nofun
  · by_cases same : slot = .client
    · subst same
      exact transferred_source (hands .run)
    · rw [transferred_of_ne (Ne.symm same) (by decide)]
      exact kept.fits.clientGone (by rw [here]; exact client same gone)
  · by_cases same : slot = .pending
    · subst same
      exact transferred_source (hands .run)
    · rw [transferred_of_ne (Ne.symm same) (by decide)]
      exact kept.fits.pendingGone (by rw [here]; exact pending same gone)
  · simp [Point.runs, runs, plain]

private theorem kept_exchangeClient {system : System} (kept : Kept system)
    (here : system.point .run = .exchangeClient next) :
    Kept ((system.move .client (.hand .run)).goto .run (.close next)) := by
  have runs := kept.fits.runs
  rw [here] at runs
  simp only [Point.runs, Bool.and_eq_true, Bool.not_eq_true'] at runs
  exact kept_taken kept here rfl rfl (.inl rfl) (fun other => absurd rfl other) (fun _ => id)
    runs.1 runs.2

private theorem kept_exchangePending {system : System} (kept : Kept system)
    (here : system.point .run = .exchangePending next) :
    Kept ((system.move .pending (.hand .run)).goto .run (.close next)) := by
  have runs := kept.fits.runs
  rw [here] at runs
  simp only [Point.runs, Bool.and_eq_true, Bool.not_eq_true'] at runs
  exact kept_taken kept here rfl rfl (.inr rfl) (fun _ => id) (fun other => absurd rfl other)
    runs.1 runs.2

/-- The task closes what it took, or goes on where there was nothing. -/
theorem kept_close {system : System} (kept : Kept system)
    (here : system.point .run = .close next)
    (stepped : system.act .run answer = some after) : Kept after := by
  have runs := kept.fits.runs
  rw [here] at runs
  simp only [Point.runs, Bool.and_eq_true, Bool.not_eq_true'] at runs
  have listened : (system.point .run).unlistened = false := by rw [here]; rfl
  have clientGone : next.clientGone = true → system.slots .client = none := fun gone =>
    kept.fits.clientGone (by rwa [here])
  have pendingGone : next.pendingGone = true → system.slots .pending = none := fun gone =>
    kept.fits.pendingGone (by rwa [here])
  simp only [System.act, here] at stepped
  split at stepped
  · rename_i empty
    cases stepped
    refine ⟨kept.owns, ?_, fun on => sees_plain kept on listened rfl rfl
      (by simpa [System.goto] using runs.2)⟩
    refine fits_run kept.fits (on_of_listened listened) rfl ?_ rfl rfl ?_ ?_ ?_ ?_ <;>
      simp only [System.goto, Function.update_self]
    · exact Function.update_of_ne (by decide) ..
    · exact fun _ => empty
    · exact clientGone
    · exact pendingGone
    · exact runs.1
  · rename_i descriptor held
    cases stepped
    refine ⟨owns_closed kept.owns held, ?_, fun on => sees_plain kept on listened rfl rfl
      (by simpa [System.goto] using runs.2)⟩
    refine fits_run kept.fits (on_of_listened listened) rfl ?_ rfl rfl ?_ ?_ ?_ ?_ <;>
      simp only [System.goto, System.closed, Function.update_self]
    · exact Function.update_of_ne (by decide) ..
    · exact fun _ => trivial
    · exact clientGone
    · exact pendingGone
    · exact runs.1

/-- The kernel has given a descriptor to the task, or none. -/
theorem kept_accept {system : System} (kept : Kept system) (here : system.point .run = .accept)
    (stepped : system.act .run answer = some after) : Kept after := by
  have listened : (system.point .run).unlistened = false := by rw [here]; rfl
  have goesOn : Kept (system.goto .run .loadActive) :=
    kept_loop kept listened (by rw [here]; rfl) rfl rfl rfl rfl rfl rfl
  simp only [System.act, here, System.given] at stepped
  split at stepped
  · split at stepped
    · cases stepped
      exact goesOn
    · rename_i descriptor given
      split at stepped
      · rename_i free
        cases stepped
        have empty : system.slots (.hand .run) = none := kept.fits.handless .run (by rw [here]; rfl)
        refine ⟨owns_opened kept.owns free empty, ?_, fun on => sees_plain kept on listened rfl
          (by simp [System.goto]) rfl⟩
        exact fits_run kept.fits (on_of_listened listened) rfl (by simp [System.goto])
          (by simp [System.goto]) (by simp [System.goto]) nofun nofun nofun rfl
      · cases stepped
  · cases stepped
    exact goesOn

/-- What is in a slot is watched. -/
theorem kept_watched {system next : System} (kept : Kept system) (on : system.point .run ≠ .off)
    {slot : Slot} {point : Point} (goes : (system.point .run).goes point = true)
    (plain : point.looks = false ∨ point = .watchClient ∨ point = .watchPending ∨ point = .select)
    (moves : next.point = Function.update system.point .run point)
    (table : next.table = system.table) (slots : next.slots = system.slots)
    (running : next.running = system.running)
    (listenSeen : system.running = true → next.listenSeen = system.slots .listen)
    (watched : next.watched = before ++ (system.slots slot).toList)
    (earlier : system.running = true →
      ∀ descriptor ∈ before, ∃ slot, system.slots slot = some descriptor) : Kept next := by
  have here : next.point .run = point := by rw [moves, Function.update_self]
  refine kept_goto kept on goes moves table slots running fun running =>
    ⟨fun _ => by rw [slots, listenSeen running], ?_, ?_, fun _ descriptor member => ?_⟩
  · rw [here]
    rintro (rfl | rfl) <;> simp [Point.looks] at plain
  · rw [here]
    rintro (rfl | rfl) <;> simp [Point.looks] at plain
  · rw [watched] at member
    rw [slots]
    obtain old | new := List.mem_append.mp member
    · exact earlier running descriptor old
    · exact ⟨slot, Option.mem_toList.mp new⟩

/-- The task looks at a slot, for its next access. -/
theorem kept_seen {system next : System} (kept : Kept system)
    (listened : (system.point .run).unlistened = false) {slot : Slot} {point : Point}
    (goes : (system.point .run).goes point = true)
    (looks : (point = .recvActive ∨ point = .drainSend) ∧ slot = .client ∨
      (point = .recvPending ∨ point = .sendReply) ∧ slot = .pending)
    (moves : next.point = Function.update system.point .run point)
    (table : next.table = system.table) (slots : next.slots = system.slots)
    (running : next.running = system.running) (listenSeen : next.listenSeen = system.listenSeen)
    (seen : system.running = true → next.seen = system.slots slot) : Kept next := by
  have here : next.point .run = point := by rw [moves, Function.update_self]
  refine kept_goto kept (on_of_listened listened) goes moves table slots running fun on =>
    ⟨fun _ => ?_, ?_, ?_, ?_⟩
  · rw [listenSeen, slots]
    exact (kept.sees on).listen listened
  · rw [here, seen on, slots]
    rcases looks with ⟨-, rfl⟩ | ⟨rfl | rfl, -⟩
    · exact fun _ => rfl
    · rintro (at_ | at_) <;> cases at_
    · rintro (at_ | at_) <;> cases at_
  · rw [here, seen on, slots]
    rcases looks with ⟨rfl | rfl, -⟩ | ⟨-, rfl⟩
    · rintro (at_ | at_) <;> cases at_
    · rintro (at_ | at_) <;> cases at_
    · exact fun _ => rfl
  · rw [here]
    rcases looks with ⟨rfl | rfl, -⟩ | ⟨rfl | rfl, -⟩ <;> rintro (at_ | at_ | at_) <;> cases at_

/-- The steps of the task keep the invariant. -/
theorem kept_run {system : System} (kept : Kept system)
    (stepped : system.act .run answer = some after) : Kept after := by
  -- most accesses only choose where to go on, within the loop
  have loop {point : Point} {next : System} (listened : (system.point .run).unlistened = false)
      (chosen : some (next.goto .run point) = some after)
      (same : next = { system with
        pendingStarted := next.pendingStarted, reads := next.reads, writes := next.writes,
        selected := next.selected })
      (goes : (system.point .run).goes point = true) (plain : point.looks = false) :
      Kept after := by
    cases chosen
    refine kept_loop kept listened goes plain ?_ ?_ ?_ ?_ ?_ <;> rw [same] <;> rfl
  cases here : system.point .run with
  | off => simp [System.act, here] at stepped
  | head =>
    simp only [System.act, here, Option.some.injEq] at stepped
    subst stepped
    refine kept_goto kept (by rw [here]; nofun) (by rw [here]; split <;> rfl) rfl rfl rfl rfl
      fun on => ?_
    simp only [on, if_true]
    exact ⟨nofun, by simp [System.goto], by simp [System.goto], by simp [System.goto]⟩
  | watchListen =>
    simp only [System.act, here, Option.some.injEq] at stepped
    subst stepped
    exact kept_watched kept (by rw [here]; nofun) (by rw [here]; split <;> rfl)
      (by split; exacts [.inl rfl, .inr (.inl rfl)]) rfl rfl rfl rfl (fun _ => rfl)
      (List.nil_append _).symm (fun _ => nofun)
  | watchClient =>
    simp only [System.act, here, Option.some.injEq] at stepped
    subst stepped
    exact kept_watched kept (by rw [here]; nofun) (by rw [here]; rfl)
      (.inr (.inr (.inl rfl))) rfl rfl
      rfl rfl (fun on => (kept.sees on).listen (by rw [here]; rfl)) rfl
      (fun on => (kept.sees on).watched (.inl here))
  | watchPending =>
    simp only [System.act, here, Option.some.injEq] at stepped
    subst stepped
    exact kept_watched kept (by rw [here]; nofun) (by rw [here]; rfl)
      (.inr (.inr (.inr rfl))) rfl rfl
      rfl rfl (fun on => (kept.sees on).listen (by rw [here]; rfl)) rfl
      (fun on => (kept.sees on).watched (.inr (.inl here)))
  | select =>
    simp only [System.act, here] at stepped
    exact loop (by rw [here]; rfl) stepped rfl (by rw [here]; rfl) rfl
  | deadline =>
    simp only [System.act, here] at stepped
    exact loop (by rw [here]; rfl) stepped rfl (by rw [here]; split <;> rfl) (by split <;> rfl)
  | ready =>
    simp only [System.act, here] at stepped
    exact loop (by rw [here]; rfl) stepped rfl (by rw [here]; split <;> rfl) (by split <;> rfl)
  | accept => exact kept_accept kept here stepped
  | casClient =>
    simp only [System.act, here] at stepped
    split at stepped
    · rename_i empty
      cases stepped
      exact kept_move kept (by rw [here]; rfl) nofun ⟨nofun, nofun⟩ ⟨nofun, nofun⟩ empty
        (fun _ => rfl) nofun nofun rfl rfl
    · exact loop (by rw [here]; rfl) stepped rfl (by rw [here]; rfl) rfl
  | onConnect =>
    simp only [System.act, here] at stepped
    exact loop (by rw [here]; rfl) stepped rfl (by rw [here]; split <;> rfl) (by split <;> rfl)
  | casPending =>
    simp only [System.act, here] at stepped
    split at stepped
    · rename_i empty
      cases stepped
      exact kept_move kept (by rw [here]; rfl) nofun ⟨nofun, nofun⟩ ⟨nofun, nofun⟩ empty
        (fun _ => rfl) nofun nofun rfl rfl
    · exact loop (by rw [here]; rfl) stepped rfl (by rw [here]; rfl) rfl
  | stampPending =>
    simp only [System.act, here] at stepped
    exact loop (by rw [here]; rfl) stepped rfl (by rw [here]; rfl) rfl
  | loadActive =>
    simp only [System.act, here, Option.some.injEq] at stepped
    subst stepped
    exact kept_seen kept (by rw [here]; rfl) (by rw [here]; rfl) (.inl ⟨.inl rfl, rfl⟩) rfl rfl rfl
      rfl rfl (fun _ => rfl)
  | recvActive =>
    simp only [System.act, here] at stepped
    exact loop (by rw [here]; rfl) stepped rfl (by rw [here]; split <;> rfl) (by split <;> rfl)
  | drainTest =>
    simp only [System.act, here] at stepped
    exact loop (by rw [here]; rfl) stepped rfl (by rw [here]; split <;> rfl) (by split <;> rfl)
  | drainIsSet =>
    simp only [System.act, here] at stepped
    exact loop (by rw [here]; rfl) stepped rfl (by rw [here]; split <;> rfl) (by split <;> rfl)
  | drainLoad =>
    simp only [System.act, here] at stepped
    split at stepped
    · cases stepped
      exact kept_seen kept (by rw [here]; rfl) (by rw [here]; rfl)
        (.inl ⟨.inr rfl, rfl⟩) rfl rfl rfl
        rfl rfl (fun _ => rfl)
    · cases stepped
      exact kept_loop kept (by rw [here]; rfl) (by rw [here]; rfl) rfl rfl rfl rfl rfl rfl
  | drainSend =>
    simp only [System.act, here] at stepped
    split at stepped
    · exact loop (by rw [here]; rfl) stepped rfl (by rw [here]; rfl) rfl
    · split at stepped
      · -- the next frame of the queue goes to the same client
        cases stepped
        exact kept_seen kept (by rw [here]; rfl) (by rw [here]; rfl) (.inl ⟨.inr rfl, rfl⟩) rfl rfl
          rfl rfl rfl (fun on => (kept.sees on).active (.inr here))
      · exact loop (by rw [here]; rfl) stepped rfl (by rw [here]; rfl) rfl
      · exact loop (by rw [here]; rfl) stepped rfl (by rw [here]; rfl) rfl
  | loadPending =>
    simp only [System.act, here, Option.some.injEq] at stepped
    subst stepped
    exact kept_seen kept (by rw [here]; rfl) (by rw [here]; rfl) (.inr ⟨.inl rfl, rfl⟩) rfl rfl rfl
      rfl rfl (fun _ => rfl)
  | recvPending =>
    simp only [System.act, here] at stepped
    split at stepped
    · split at stepped
      · exact loop (by rw [here]; rfl) stepped rfl (by rw [here]; rfl) rfl
      · exact loop (by rw [here]; rfl) stepped rfl (by rw [here]; split <;> rfl) (by split <;> rfl)
    · exact loop (by rw [here]; rfl) stepped rfl (by rw [here]; rfl) rfl
  | loadReply =>
    simp only [System.act, here, Option.some.injEq] at stepped
    subst stepped
    exact kept_seen kept (by rw [here]; rfl) (by rw [here]; rfl) (.inr ⟨.inr rfl, rfl⟩) rfl rfl rfl
      rfl rfl (fun _ => rfl)
  | sendReply =>
    simp only [System.act, here] at stepped
    exact loop (by rw [here]; rfl) stepped rfl (by rw [here]; rfl) rfl
  | exchangeClient next =>
    simp only [System.act, here, Option.some.injEq] at stepped
    subst stepped
    exact kept_exchangeClient kept here
  | exchangePending next =>
    simp only [System.act, here, Option.some.injEq] at stepped
    subst stepped
    exact kept_exchangePending kept here
  | close next => exact kept_close kept here stepped
  | _ =>
    have runs := kept.fits.runs
    rw [here] at runs
    cases runs

/-! ### Steps of the caller -/

/-- The caller leaves the task where it is, and what it has in its hand. -/
theorem kept_caller {system next : System} (kept : Kept system)
    (task : next.point .run = system.point .run)
    (owns : Owns next.table .server next.slots)
    (hand : next.slots (.hand .run) = system.slots (.hand .run))
    (client : next.slots .client = system.slots .client ∨ next.slots .client = none)
    (pending : next.slots .pending = system.slots .pending ∨ next.slots .pending = none)
    (handless : (next.point .caller).handless = true → next.slots (.hand .caller) = none)
    (calls : next.point .caller = .off ∨ next.point .caller = .exchangeRunning ∨
      (next.point .caller).starts = true ∨ (next.point .caller).stops = true)
    (quiet : next.running = true → (next.point .caller).quiet = true)
    (armed : next.point .caller = .createTask → next.running = true)
    (fresh : (next.point .caller).starts = true → system.point .run = .off)
    (served : system.point .run ≠ .off → next.running = true ∨ (next.point .caller).stops = true)
    (listened : next.slots .listen ≠ none → next.running = true ∨
      next.point .caller = .setRunning ∨ ∃ then_, next.point .caller = .takeListen then_)
    (sees : next.running = true → Sees next) : Kept next where
  owns := owns
  fits := {
    handless := fun thread => by
      cases thread with
      | run =>
        rw [task, hand]
        exact kept.fits.handless .run
      | caller => exact handless
    clientGone := fun gone => client.elim (·.trans (kept.fits.clientGone (task ▸ gone))) id
    pendingGone := fun gone => pending.elim (·.trans (kept.fits.pendingGone (task ▸ gone))) id
    runs := by
      rw [task]
      exact kept.fits.runs
    calls := calls
    quiet := quiet
    armed := armed
    fresh := by
      rw [task]
      exact fresh
    served := by
      rw [task]
      exact served
    listened := listened }
  sees := sees

private theorem stops_of_starts : ∀ {point : Point}, point.starts = true → point.stops = false
  | .socket, _ | .bindListen, _ | .createMutex, _ | .publishListen, _ | .setRunning, _
  | .createTask, _ | .clearRunning, _ | .takeListen .off, _ | .close .off, _ => rfl

/-- Where the caller is within `start` there is no task, and where it is within `stop` the
server does not run. -/
theorem still_of_not_quiet {system : System} (fits : Fits system)
    (loud : (system.point .caller).quiet = false) : system.running = false := by
  by_contra on
  rw [Bool.not_eq_false] at on
  exact absurd (fits.quiet on) (by simp [loud])

/-- A step of the caller while the server does not run, to within the same call or out of it. -/
theorem kept_still {system next : System} (kept : Kept system) {point : Point}
    (moves : next.point = Function.update system.point .caller point)
    (still : next.running = false)
    (owns : Owns next.table .server next.slots)
    (hand : next.slots (.hand .run) = system.slots (.hand .run))
    (client : next.slots .client = system.slots .client ∨ next.slots .client = none)
    (pending : next.slots .pending = system.slots .pending ∨ next.slots .pending = none)
    (handless : point.handless = true → next.slots (.hand .caller) = none)
    (listened : next.slots .listen ≠ none →
      point = .setRunning ∨ ∃ then_, point = .takeListen then_)
    (within : system.point .run = .off ∧
        (point = .off ∨ point.starts = true ∧ point ≠ .createTask) ∨ point.stops = true) :
    Kept next := by
  have here : next.point .caller = point := by rw [moves, Function.update_self]
  refine kept_caller kept (by rw [moves, Function.update_of_ne (by decide)])
    owns hand client pending
    ?_ ?_ ?_ ?_ ?_ ?_ ?_ ?_
  · rwa [here]
  · rw [here]
    obtain ⟨-, off | starts⟩ | stops := within
    · exact .inl off
    · exact .inr (.inr (.inl starts.1))
    · exact .inr (.inr (.inr stops))
  · rw [still]
    nofun
  · rw [here]
    rintro rfl
    obtain ⟨-, off | starts⟩ | stops := within
    · cases off
    · exact absurd rfl starts.2
    · cases stops
  · rw [here]
    intro starts
    obtain ⟨off, -⟩ | stops := within
    · exact off
    · rw [stops_of_starts starts] at stops
      cases stops
  · rw [here]
    exact fun on => .inr (within.resolve_left fun off => on off.1)
  · rw [here]
    exact fun held => .inr (listened held)
  · rw [still]
    nofun

/-- What a slot has after another one's descriptor, or its own, was taken elsewhere. -/
theorem moved_or_none {slots : Slot → Option Nat} {source target slot : Slot}
    (apart : source ≠ target) (notTarget : slot ≠ target) :
    transferred slots source target slot = slots slot ∨
      transferred slots source target slot = none := by
  by_cases same : slot = source
  · subst same
    exact .inr (transferred_source apart)
  · exact .inl (transferred_of_ne same notTarget)

/-- The caller carries a descriptor between its hand and a slot, or nothing. -/
theorem kept_carried {system : System} (kept : Kept system) (still : system.running = false)
    {source target : Slot} {point : Point} (apart : source ≠ target)
    (own : source ≠ .hand .run ∧ target ≠ .hand .run)
    (targets : target ≠ .client ∧ target ≠ .pending) (empty : system.slots target = none)
    (handless : point.handless = true → source = .hand .caller)
    (listened : transferred system.slots source target .listen ≠ none →
      point = .setRunning ∨ ∃ next, point = .takeListen next)
    (within : system.point .run = .off ∧
        (point = .off ∨ point.starts = true ∧ point ≠ .createTask) ∨ point.stops = true) :
    Kept ((system.move source target).goto .caller point) := by
  refine kept_still kept rfl still (owns_transferred kept.owns apart empty)
    (transferred_of_ne own.1.symm own.2.symm) (moved_or_none apart targets.1.symm)
    (moved_or_none apart targets.2.symm) (fun free => ?_) listened within
  rw [← handless free]
  exact transferred_source apart

private theorem listen_empty {system : System} (fits : Fits system) (still : system.running = false)
    (notSet : system.point .caller ≠ .setRunning)
    (notTaken : ∀ next, system.point .caller ≠ .takeListen next) : system.slots .listen = none := by
  by_contra held
  obtain on | set | ⟨next, taken⟩ := fits.listened held
  · rw [still] at on
    cases on
  · exact notSet set
  · exact notTaken next taken

/-- A failing `start` is done once it has closed the listener, `stop` goes on. -/
theorem ends_or_stops {system : System} (fits : Fits system)
    (here : system.point .caller = .takeListen next ∨ system.point .caller = .close next) :
    system.point .run = .off ∧ next = .off ∨ next.stops = true := by
  obtain at_ | at_ | starts | stops := fits.calls
  · rcases here with here | here <;> rw [here] at at_ <;> cases at_
  · rcases here with here | here <;> rw [here] at at_ <;> cases at_
  · refine .inl ⟨fits.fresh starts, ?_⟩
    rcases here with here | here <;> rw [here] at starts <;> cases next <;>
      first | rfl | cases starts
  · rcases here with here | here <;> rw [here] at stops <;> exact .inr stops

/-- `stop` takes what is in a slot, to close it. -/
theorem kept_emptied {system : System} (kept : Kept system) {slot : Slot}
    (source : slot = .client ∧ system.point .caller = .exchangeClient next ∨
      slot = .pending ∧ system.point .caller = .exchangePending next) :
    Kept ((system.move slot (.hand .caller)).goto .caller (.close next)) := by
  have fits := kept.fits
  have still : system.running = false := still_of_not_quiet fits (by
    rcases source with ⟨-, here⟩ | ⟨-, here⟩ <;> rw [here] <;> rfl)
  have unset : system.slots .listen = none := listen_empty fits still
    (by rcases source with ⟨-, here⟩ | ⟨-, here⟩ <;> rw [here] <;> nofun)
    (by rcases source with ⟨-, here⟩ | ⟨-, here⟩ <;> rw [here] <;> nofun)
  have empty : system.slots (.hand .caller) = none := fits.handless .caller (by
    rcases source with ⟨-, here⟩ | ⟨-, here⟩ <;> rw [here] <;> rfl)
  have stops : next.stops = true := by
    rcases source with ⟨-, here⟩ | ⟨-, here⟩ <;> obtain at_ | at_ | at_ | at_ := fits.calls <;>
      rw [here] at at_ <;> first | exact at_ | cases at_
  have apart : slot ≠ .listen ∧ ∀ thread, slot ≠ .hand thread := by
    rcases source with ⟨rfl, -⟩ | ⟨rfl, -⟩ <;> exact ⟨nofun, fun thread => nofun⟩
  refine kept_carried kept still (apart.2 .caller) ⟨apart.2 .run, nofun⟩ ⟨nofun, nofun⟩ empty nofun
    (fun held => absurd ?_ held) (.inr stops)
  rw [transferred_of_ne apart.1.symm (by decide)]
  exact unset

/-- The steps of the caller keep the invariant. -/
theorem kept_call {system : System} (kept : Kept system)
    (stepped : system.act .caller answer = some after) : Kept after := by
  have fits := kept.fits
  have calls := fits.calls
  cases here : system.point .caller with
  | off => simp [System.act, here] at stepped
  | socket =>
    simp only [System.act, here, System.given] at stepped
    have still := still_of_not_quiet fits (by rw [here]; rfl)
    have off := fits.fresh (by rw [here]; rfl)
    have empty := fits.handless .caller (by rw [here]; rfl)
    have unset := listen_empty fits still (by rw [here]; nofun) (by rw [here]; nofun)
    split at stepped
    · cases stepped
      exact kept_still kept rfl still kept.owns rfl (.inl rfl) (.inl rfl) (fun _ => empty)
        (absurd unset) (.inl ⟨off, .inl rfl⟩)
    · split at stepped
      · rename_i free
        cases stepped
        refine kept_still kept rfl still (owns_opened kept.owns free empty) (by simp [System.goto])
          (.inl (by simp [System.goto])) (.inl (by simp [System.goto])) nofun ?_
          (.inl ⟨off, .inr ⟨rfl, nofun⟩⟩)
        simp [System.goto, unset]
      · cases stepped
  | bindListen =>
    simp only [System.act, here, Option.some.injEq] at stepped
    subst stepped
    have still := still_of_not_quiet fits (by rw [here]; rfl)
    have unset := listen_empty fits still (by rw [here]; nofun) (by rw [here]; nofun)
    exact kept_still kept rfl still kept.owns rfl (.inl rfl) (.inl rfl) (by split <;> nofun)
      (absurd unset) (.inl ⟨fits.fresh (by rw [here]; rfl), .inr (by split <;> exact ⟨rfl, nofun⟩)⟩)
  | createMutex =>
    simp only [System.act, here, Option.some.injEq] at stepped
    subst stepped
    have still := still_of_not_quiet fits (by rw [here]; rfl)
    have unset := listen_empty fits still (by rw [here]; nofun) (by rw [here]; nofun)
    exact kept_still kept rfl still kept.owns rfl (.inl rfl) (.inl rfl) (by split <;> nofun)
      (absurd unset) (.inl ⟨fits.fresh (by rw [here]; rfl), .inr (by split <;> exact ⟨rfl, nofun⟩)⟩)
  | publishListen =>
    simp only [System.act, here, Option.some.injEq] at stepped
    subst stepped
    have still := still_of_not_quiet fits (by rw [here]; rfl)
    have unset := listen_empty fits still (by rw [here]; nofun) (by rw [here]; nofun)
    exact kept_carried kept still nofun ⟨nofun, nofun⟩ ⟨nofun, nofun⟩ unset (fun _ => rfl)
      (fun _ => .inl rfl) (.inl ⟨fits.fresh (by rw [here]; rfl), .inr ⟨rfl, nofun⟩⟩)
  | setRunning =>
    simp only [System.act, here, Option.some.injEq] at stepped
    subst stepped
    have off := fits.fresh (by rw [here]; rfl)
    refine kept_caller kept (by simp [System.goto]) kept.owns rfl (.inl rfl) (.inl rfl)
      (fun _ => fits.handless .caller (by rw [here]; rfl)) ?_
      (fun _ => by simp [System.goto, Point.quiet])
      (fun _ => rfl) (fun _ => off) (fun on => absurd off on) (fun _ => .inl rfl) fun _ => ?_
    · exact .inr (.inr (.inl (by simp [System.goto, Point.starts])))
    · have at_ : (({ system with running := true } : System).goto .caller .createTask).point .run =
          .off := by simpa [System.goto] using off
      refine ⟨?_, ?_, ?_, ?_⟩ <;> rw [at_] <;> nofun
  | createTask =>
    simp only [System.act, here, Option.some.injEq] at stepped
    subst stepped
    have empty := fits.handless .caller (by rw [here]; rfl)
    have off := fits.fresh (by rw [here]; rfl)
    have on := fits.armed here
    split
    · refine ⟨kept.owns, ⟨fun thread => ?_, nofun, nofun, rfl, .inl rfl, fun _ => rfl, nofun, nofun,
        fun _ => .inl on, fun _ => .inl on⟩, fun _ => ⟨nofun, nofun, nofun, nofun⟩⟩
      cases thread with
      | run => exact fun _ => fits.handless .run (by rw [off]; rfl)
      | caller => exact fun _ => empty
    · refine kept_caller kept (by simp [System.goto]) kept.owns rfl (.inl rfl) (.inl rfl)
        (fun _ => empty) ?_ (fun _ => by simp [System.goto, Point.quiet])
        (fun _ => on) (fun _ => off) (fun run => absurd off run) (fun _ => .inl on) fun _ => ?_
      · exact .inr (.inr (.inl (by simp [System.goto, Point.starts])))
      · have at_ : (system.goto .caller .clearRunning).point .run = .off := by
          simpa [System.goto] using off
        refine ⟨?_, ?_, ?_, ?_⟩ <;> rw [at_] <;> nofun
  | clearRunning =>
    simp only [System.act, here, Option.some.injEq] at stepped
    subst stepped
    exact kept_still kept rfl rfl kept.owns rfl (.inl rfl) (.inl rfl)
      (fun _ => fits.handless .caller (by rw [here]; rfl)) (fun _ => .inr ⟨.off, rfl⟩)
      (.inl ⟨fits.fresh (by rw [here]; rfl), .inr ⟨rfl, nofun⟩⟩)
  | exchangeRunning =>
    simp only [System.act, here, Option.some.injEq] at stepped
    subst stepped
    have empty := fits.handless .caller (by rw [here]; rfl)
    by_cases on : system.running = true
    · rw [if_pos on]
      exact kept_still kept rfl rfl kept.owns rfl (.inl rfl) (.inl rfl) (fun _ => empty)
        (fun _ => .inr ⟨_, rfl⟩) (.inr rfl)
    · rw [if_neg on]
      have unset :=
        listen_empty fits (by simpa using on) (by rw [here]; nofun) (by rw [here]; nofun)
      have off : system.point .run = .off := by
        by_contra runs
        exact (fits.served runs).elim on (by rw [here]; nofun)
      exact kept_still kept rfl rfl kept.owns rfl (.inl rfl) (.inl rfl) (fun _ => empty)
        (absurd unset) (.inl ⟨off, .inl rfl⟩)
  | waitTask =>
    simp only [System.act, here, Option.some.injEq] at stepped
    subst stepped
    have still := still_of_not_quiet fits (by rw [here]; rfl)
    have unset := listen_empty fits still (by rw [here]; nofun) (by rw [here]; nofun)
    split
    · rename_i off
      exact kept_still kept rfl still kept.owns rfl (.inl rfl) (.inl rfl)
        (fun _ => fits.handless .caller (by rw [here]; rfl)) (absurd unset) (.inl ⟨off, .inl rfl⟩)
    · exact kept
  | takeListen next =>
    simp only [System.act, here, Option.some.injEq] at stepped
    subst stepped
    have still := still_of_not_quiet fits (by rw [here]; rfl)
    refine kept_carried kept still nofun ⟨nofun, nofun⟩ ⟨nofun, nofun⟩
      (fits.handless .caller (by rw [here]; rfl)) nofun (absurd (transferred_source nofun)) ?_
    exact (ends_or_stops fits (.inl here)).imp (fun start =>
      ⟨start.1, .inr (by rw [start.2]; exact ⟨rfl, nofun⟩)⟩) id
  | exchangeClient next =>
    simp only [System.act, here, Option.some.injEq] at stepped
    subst stepped
    exact kept_emptied kept (.inl ⟨rfl, here⟩)
  | exchangePending next =>
    simp only [System.act, here, Option.some.injEq] at stepped
    subst stepped
    exact kept_emptied kept (.inr ⟨rfl, here⟩)
  | close next =>
    have still := still_of_not_quiet fits (by rw [here]; rfl)
    have unset := listen_empty fits still (by rw [here]; nofun) (by rw [here]; nofun)
    have within := (ends_or_stops fits (.inr here)).imp
      (fun start => And.imp_right (Or.inl (b := next.starts = true ∧ next ≠ .createTask)) start) id
    simp only [System.act, here] at stepped
    split at stepped
    · rename_i empty
      cases stepped
      exact kept_still kept rfl still kept.owns rfl (.inl rfl) (.inl rfl) (fun _ => empty)
        (absurd unset) within
    · rename_i descriptor held
      cases stepped
      exact kept_still kept rfl still (owns_closed kept.owns held)
        (by simp [System.goto, System.closed])
        (.inl (by simp [System.goto, System.closed])) (.inl (by simp [System.goto, System.closed]))
        (by simp [System.goto, System.closed]) (by simp [System.goto, System.closed, unset]) within
  | _ =>
    rw [here] at calls
    rcases calls with at_ | at_ | at_ | at_ <;> cases at_

/-! ### Whole runs -/

/-- Between the calls a server that is off has no task. -/
theorem task_off {system : System} (fits : Fits system) (idle : system.point .caller = .off)
    (still : system.running = false) : system.point .run = .off := by
  by_contra on
  obtain running | stops := fits.served on
  · rw [still] at running
    cases running
  · rw [idle] at stops
    cases stops

/-- What the rest of the robot does with descriptors of its own. -/
theorem kept_others {system : System} (kept : Kept system) {now : Option Owner}
    (before : system.table descriptor ≠ some .server) (after : now ≠ some .server) :
    Kept { system with table := Function.update system.table descriptor now } where
  owns := owns_others kept.owns before after
  fits := { kept.fits with }
  sees on := { kept.sees on with }

private theorem kept_step {system : System} (kept : Kept system)
    (stepped : step system event = some after) :
    Kept after := by
  have fits := kept.fits
  cases event with
  | start =>
    simp only [step] at stepped
    split at stepped
    · rename_i idle
      cases stepped
      split
      · exact kept
      · rename_i still
        rw [Bool.not_eq_true] at still
        have unset := listen_empty fits still (by rw [idle]; nofun) (by rw [idle]; nofun)
        exact kept_still kept rfl still kept.owns rfl (.inl rfl) (.inl rfl)
          (fun _ => fits.handless .caller (by rw [idle]; rfl)) (absurd unset)
          (.inl ⟨task_off fits idle still, .inr ⟨rfl, nofun⟩⟩)
    · cases stepped
  | stop =>
    simp only [step] at stepped
    split at stepped
    · rename_i idle
      cases stepped
      have here : (system.goto .caller .exchangeRunning).point .caller = .exchangeRunning := by
        simp [System.goto]
      refine kept_caller kept (by simp [System.goto]) kept.owns rfl (.inl rfl) (.inl rfl)
        (fun _ => fits.handless .caller (by rw [idle]; rfl)) ?_ ?_ ?_ ?_ (fun on => .inl ?_)
        (fun held => .inl ?_) fun on => ?_
      · exact .inr (.inl here)
      · rw [here]
        exact fun _ => rfl
      · rw [here]
        nofun
      · rw [here]
        nofun
      · exact (fits.served on).resolve_right (by rw [idle]; nofun)
      · refine (fits.listened held).resolve_right ?_
        rw [idle]
        rintro (at_ | ⟨_, at_⟩) <;> cases at_
      · have same : (system.goto .caller .exchangeRunning).point .run = system.point .run := by
          simp [System.goto]
        have sees := kept.sees on
        exact ⟨same ▸ sees.listen, same ▸ sees.active, same ▸ sees.pending, same ▸ sees.watched⟩
    · cases stepped
  | act thread answer =>
    cases thread with
    | run => exact kept_run kept stepped
    | caller => exact kept_call kept stepped
  | othersOpen descriptor =>
    simp only [step] at stepped
    split at stepped
    · rename_i free
      cases stepped
      exact kept_others kept (by rw [free]; nofun) nofun
    · cases stepped
  | othersClose descriptor =>
    simp only [step] at stepped
    split at stepped
    · rename_i others
      cases stepped
      exact kept_others kept (by rw [others]; nofun) nofun
    · cases stepped

private theorem uses_own {system : System} (kept : Kept system) (on : system.running = true)
    (used : descriptor ∈ system.uses) : system.table descriptor = some .server := by
  have sees := kept.sees on
  rw [kept.owns.exact]
  cases here : system.point .run <;> simp only [System.uses, here, List.not_mem_nil] at used
  case select => exact sees.watched (.inr (.inr here)) descriptor used
  case accept =>
    rw [sees.listen (by rw [here]; rfl), Option.mem_toList] at used
    exact ⟨.listen, used⟩
  case recvActive =>
    rw [sees.active (.inl here), Option.mem_toList] at used
    exact ⟨.client, used⟩
  case drainSend =>
    rw [sees.active (.inr here), Option.mem_toList] at used
    exact ⟨.client, used⟩
  case recvPending =>
    rw [sees.pending (.inl here), Option.mem_toList] at used
    exact ⟨.pending, used⟩
  case sendReply =>
    rw [sees.pending (.inr here), Option.mem_toList] at used
    exact ⟨.pending, used⟩

private theorem none_left {system : System} (kept : Kept system)
    (idle : system.point .caller = .off)
    (still : system.running = false) (descriptor : Nat) :
    system.table descriptor ≠ some .server := by
  have fits := kept.fits
  have off := task_off fits idle still
  rw [Ne, kept.owns.exact, not_exists]
  intro slot
  have empty : system.slots slot = none := by
    cases slot with
    | listen => exact listen_empty fits still (by rw [idle]; nofun) (by rw [idle]; nofun)
    | client => exact fits.clientGone (by rw [off]; rfl)
    | pending => exact fits.pendingGone (by rw [off]; rfl)
    | hand thread =>
      cases thread with
      | run => exact fits.handless .run (by rw [off]; rfl)
      | caller => exact fits.handless .caller (by rw [idle]; rfl)
  rw [empty]
  nofun

/-- In every run of the server's task, of the calls of `start` and `stop` and of the rest of the
robot, however they take turns: what a thread closes is the server's, what the task gives to
the kernel while the server runs is the server's, and a server that is off has nothing open. -/
theorem descriptors_are_closed_once
    (foreign : ∀ descriptor, table descriptor ≠ some .server)
    (ran : run step (.off table) events = some system) :
    (∀ thread next descriptor, system.point thread = .close next →
      system.slots (.hand thread) = some descriptor → system.table descriptor = some .server) ∧
    (system.running = true →
      ∀ descriptor ∈ system.uses, system.table descriptor = some .server) ∧
    (system.point .caller = .off → system.running = false →
      ∀ descriptor, system.table descriptor ≠ some .server) := by
  have kept : Kept system := run_invariant kept_step (kept_off foreign) ran
  refine ⟨fun thread next descriptor _ held => ?_, fun on descriptor used => ?_, none_left kept⟩
  · exact (kept.owns.exact descriptor).mpr ⟨_, held⟩
  · exact uses_own kept on used

private def started : List Event :=
  [.start, .act .caller { descriptor := some 5 }] ++ List.replicate 5 (.act .caller {})

/-- One pass of the loop up to the accept, and one from there to the next. -/
private def accepting : List Event :=
  List.replicate 4 (.act .run {}) ++ [.act .run { reads := [5] }] ++ List.replicate 2 (.act .run {})

private def accepted (descriptor : Nat) : List Event :=
  .act .run { descriptor := some descriptor } :: List.replicate 8 (.act .run { good := false })

/-- The task is about to accept when the server is stopped and another one gets the number of
its listener. -/
private def stoppedAccept : List Event :=
  started ++ accepting ++ accepted 6 ++ accepting ++
    [.stop] ++ List.replicate 7 (.act .caller {}) ++ [.othersOpen 5]

/-- Outside of `running` the task may give the kernel what another one has by now. -/
example : (run step (.off fun _ => none) stoppedAccept).map
    (fun system => (system.running, system.uses, system.table 5)) =
      some (false, [5], some .other) := by
  decide +kernel

theorem descriptors_of_a_stopped_server_are_closed_once : ∃ system,
    run step (.off fun _ => none)
      (stoppedAccept ++ accepted 7 ++ List.replicate 5 (.act .run {}) ++ [.act .caller {}]) =
        some system ∧
      system.point .caller = .off ∧ system.table 7 ≠ some .server ∧
        system.table 5 = some .other := by
  obtain ⟨-, -, noneLeft⟩ := @descriptors_are_closed_once (fun _ => none)
    (stoppedAccept ++ accepted 7 ++ List.replicate 5 (.act .run {}) ++ [.act .caller {}])
    _ nofun rfl
  exact ⟨_, rfl, rfl, noneLeft rfl rfl 7, rfl⟩

end BallyOS.Tcp.Sockets
