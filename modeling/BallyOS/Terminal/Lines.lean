import BallyOS.Terminal.Isolation

/-! What becomes of the lines an origin types while its slot stays: one command in
flight at a time, the others in order behind it, and none lost without a count. -/
namespace BallyOS.Terminal
open Library

variable {E : Type}

namespace Responder

/-- The step neither evicts nor unbinds the origin's slot. -/
def Stays (origin : Origin) (world : Responder E) : Event → Prop
  | .terminalIn _ sender _ plaintext locked =>
    plaintext ≠ [] → locked = true → world.find sender = none →
      (world.slots world.victim).used = true → (world.slots world.victim).origin ≠ origin
  | .unbind target locked => locked = true → ∀ i, (world.slots i).used = true →
      (world.slots i).origin = origin → (world.slots i).target ≠ target
  | _ => True

/-- The origin was given no slot but the one it has. -/
def Sole (origin : Origin) (world : Responder E) : Prop :=
  ∀ session i, world.sessions[session]? = some (origin, i) →
    (world.slots i).used = true ∧ (world.slots i).origin = origin ∧
      (world.slots i).session = session

private theorem sole_of_slots {before after : Responder E} (sole : Sole origin before)
    (sessions : after.sessions = before.sessions)
    (slots : ∀ i, (after.slots i).used = (before.slots i).used ∧
      (after.slots i).origin = (before.slots i).origin ∧
      (after.slots i).session = (before.slots i).session) : Sole origin after := by
  intro session i known
  rw [sessions] at known
  rw [(slots i).1, (slots i).2.1, (slots i).2.2]
  exact sole session i known

private theorem sole_unbind {world : Responder E} (sole : Sole origin world)
    (stays : locked = true → ∀ i, (world.slots i).used = true →
      (world.slots i).origin = origin → (world.slots i).target ≠ target) :
    Sole origin (world.unbindTarget target locked) := by
  intro session i known
  obtain ⟨used, same, numbered⟩ := sole session i known
  have kept : (world.unbindTarget target locked).slots i = world.slots i :=
    if_neg fun ⟨lock, _, aimed⟩ => stays lock i used same aimed
  rw [kept]
  exact ⟨used, same, numbered⟩

private theorem sole_allocated {before after : Responder E} (sole : Sole origin before)
    (stays : (before.slots i).used = true → (before.slots i).origin ≠ origin)
    (allocated : Allocated before sender i after) : Sole origin after := by
  intro session j known
  rw [allocated.sessions] at known
  rcases Nat.lt_or_ge session before.sessions.length with old | new
  · rw [List.getElem?_append_left old] at known
    obtain ⟨used, same, numbered⟩ := sole session j known
    have other : j ≠ i := by
      rintro rfl
      exact stays used same
    rw [allocated.others j other]
    exact ⟨used, same, numbered⟩
  · rw [List.getElem?_append_right new, List.getElem?_singleton] at known
    split at known
    · rename_i last
      cases known
      refine ⟨allocated.used, allocated.origin, ?_⟩
      rw [allocated.session]
      omega
    · contradiction

private theorem sole_step {config : Config E} {world next : Responder E} (sole : Sole origin world)
    (ordered : Ordered world) (stays : Stays origin world event)
    (stepped : step config world event = some next) : Sole origin next := by
  cases moved_of_step stepped with
  | quiet quiet =>
    refine sole_of_slots sole quiet.sessions fun i => ?_
    obtain ⟨used, same, session, _⟩ := quiet.slots i
    exact ⟨used, same, session⟩
  | given bytes missing allocated => exact sole_allocated sole (stays bytes rfl missing) allocated
  | unbound target locked => exact sole_unbind sole stays
  | @answered command rest queued text status =>
    have sessions := (calmer_deliver { world with queue := rest } command.origin text
      status).sessions
    exact sole_of_slots sole sessions
      (deliver_slots { world with queue := rest } command.origin text status)
  | took idle used now => exact sole_of_slots sole rfl fun j => pumpTake_kept world _ j now
  | began taken accepted =>
    have passed := passed_begin ordered taken config accepted
    exact sole_of_slots sole passed.sessions fun i => by rw [passed.slots]; exact ⟨rfl, rfl, rfl⟩
  | polled polling accepted =>
    have passed := passed_poll ordered polling config accepted
    exact sole_of_slots sole passed.sessions fun i => by rw [passed.slots]; exact ⟨rfl, rfl, rfl⟩

/-- A session that is the origin's, or nobody's yet. -/
def Ours (origin : Origin) (world : Responder E) (session : Nat) : Prop :=
  ∀ entry, world.sessions[session]? = some entry → entry.1 = origin

/-- An origin with no other slot gets nobody else's results. -/
theorem reachesOwn_of_sole {world : Responder E} (ordered : Ordered world)
    (sole : Sole origin world) (ours : Ours origin world session) (event : Event) :
    ReachesOwn session world event := by
  cases event with
  | commandResult text status =>
    intro command oldest i found same
    obtain ⟨used, sender⟩ := find_some found
    have mine : (world.slots i).origin = origin := by
      have known := ordered.slot i used
      rw [same] at known
      exact ours _ known
    obtain ⟨j, known⟩ := ordered.noted command (by simp [noted, List.mem_of_mem_head? oldest])
    rw [← sender, mine] at known
    obtain ⟨usedJ, mineJ, numbered⟩ := sole command.session j known
    cases ordered.apart i j used usedJ (mine.trans mineJ.symm)
    rw [← numbered, same]
  | _ => trivial

private theorem sessions_step {config : Config E} {world next : Responder E}
    (ordered : Ordered world)
    (stepped : step config world event = some next) :
    ∃ more, next.sessions = world.sessions ++ more := by
  have same : ∀ {next : Responder E}, next.sessions = world.sessions →
      ∃ more, next.sessions = world.sessions ++ more :=
    fun same => ⟨[], by rw [same, List.append_nil]⟩
  cases moved_of_step stepped with
  | quiet quiet => exact same quiet.sessions
  | given _ _ allocated => exact ⟨_, allocated.sessions⟩
  | unbound target locked => exact same rfl
  | @answered command rest queued text status =>
    exact same (calmer_deliver { world with queue := rest } command.origin text status).sessions
  | took idle used now => exact same rfl
  | began taken accepted => exact same (passed_begin ordered taken config accepted).sessions
  | polled polling accepted => exact same (passed_poll ordered polling config accepted).sessions

/-- What a run keeps that leaves the origin its slot. -/
structure Settled (origin : Origin) (world : Responder E) : Prop where
  sound : Sound world
  sole : Sole origin world
  accounted : ∀ session, Ours origin world session → Accounted world session

private theorem settled_step {config : Config E} {world next : Responder E} {event : Event}
    (settled : Settled origin world) (stays : Stays origin world event)
    (stepped : step config world event = some next) : Settled origin next where
  sound := sound_step settled.sound stepped
  sole := sole_step settled.sole settled.sound.ordered stays stepped
  accounted session ours := by
    obtain ⟨more, sessions⟩ := sessions_step settled.sound.ordered stepped
    have before : Ours origin world session := by
      intro entry known
      apply ours entry
      rw [sessions]
      exact known_append known
    exact accounted_step settled.sound.ordered settled.sound.held
      (settled.accounted session before)
      (reachesOwn_of_sole settled.sound.ordered settled.sole before event) stepped

private theorem settled_start (origin : Origin) (editor : E) : Settled origin (start editor) where
  sound := sound_start editor
  sole _ _ known := by contradiction
  accounted session _ := accounted_start editor session

/-- The lines an origin typed among the commands, in order. -/
def linesFrom (origin : Origin) (commands : List Command) : List Text :=
  (commands.filter fun command => command.origin = origin).map Command.line

/-- The line held for an origin: its slot's, once a pass has reset it for the origin. -/
def heldLine (world : Responder E) (origin : Origin) : List Text :=
  match world.find origin with
  | some i =>
    if (world.typings i).owner = some (world.slots i).session then
      waiting (world.typings i).pendingLine
    else []
  | none => []

private theorem noted_of_queue {world : Responder E} (member : command ∈ world.queue) :
    command ∈ world.noted := by
  simp [noted, member]

/-- The commands of an origin are those of its slot's session. -/
theorem Settled.own_iff {world : Responder E} (settled : Settled origin world)
    (found : world.find origin = some i) (member : command ∈ world.noted) :
    command.origin = origin ↔ command.session = (world.slots i).session := by
  obtain ⟨used, same⟩ := find_some found
  obtain ⟨j, known⟩ := settled.sound.ordered.noted command member
  constructor
  · intro mine
    rw [mine] at known
    obtain ⟨usedJ, sameJ, numbered⟩ := settled.sole command.session j known
    cases settled.sound.ordered.apart i j used usedJ (same.trans sameJ.symm)
    exact numbered.symm
  · intro mine
    have slot := settled.sound.ordered.slot i used
    rw [← mine, known, same] at slot
    exact (Prod.ext_iff.mp (Option.some.inj slot)).1

/-- An origin without a slot never typed anything. -/
theorem Settled.none_of_missing {world : Responder E} (settled : Settled origin world)
    (missing : world.find origin = none) (member : command ∈ world.noted) :
    command.origin ≠ origin := by
  rintro mine
  obtain ⟨j, known⟩ := settled.sound.ordered.noted command member
  rw [mine] at known
  obtain ⟨used, same, _⟩ := settled.sole command.session j known
  exact find_none missing j used same

private theorem Settled.ours {world : Responder E} (settled : Settled origin world)
    (found : world.find origin = some i) : Ours origin world (world.slots i).session := by
  obtain ⟨used, same⟩ := find_some found
  intro entry known
  rw [settled.sound.ordered.slot i used] at known
  cases known
  exact same

private theorem linesFrom_eq {commands : List Command}
    (own : ∀ command ∈ commands, command.origin = origin ↔ command.session = session) :
    linesFrom origin commands = linesOf session commands := by
  have same : commands.filter (fun command => command.origin = origin) =
      commands.filter fun command => command.session = session :=
    List.filter_congr fun command member => by simp [own command member]
  unfold linesFrom linesOf
  rw [same]

private theorem linesFrom_absent {commands : List Command}
    (absent : ∀ command ∈ commands, command.origin ≠ origin) : linesFrom origin commands = [] := by
  have none : commands.filter (fun command => command.origin = origin) = [] :=
    List.filter_eq_nil_iff.mpr fun command member => by simpa using absent command member
  simp [linesFrom, none]

private theorem Settled.lines {world : Responder E} (settled : Settled origin world) :
    Backlog [] (linesFrom origin world.typed) (linesFrom origin world.submitted)
      (linesFrom origin world.dropped) (world.heldLine origin) := by
  unfold heldLine
  split
  · rename_i i found
    have accounted := settled.accounted _ (settled.ours found)
    rw [linesFrom_eq fun command member => settled.own_iff found (by simp [noted, member]),
      linesFrom_eq fun command member => settled.own_iff found (by simp [noted, member]),
      linesFrom_eq fun command member => settled.own_iff found (by simp [noted, member])]
    split
    · rename_i owns
      exact (accounted.owned i owns).lines
    · rename_i other
      exact (accounted.unborn i other (Or.inl ⟨(find_some found).1, rfl⟩)).lines
  · rename_i missing
    rw [linesFrom_absent fun command member => settled.none_of_missing missing
        (by simp [noted, member]),
      linesFrom_absent fun command member => settled.none_of_missing missing
        (by simp [noted, member]),
      linesFrom_absent fun command member => settled.none_of_missing missing
        (by simp [noted, member])]
    exact Backlog.empty

private theorem Settled.few {world : Responder E} (settled : Settled origin world) :
    world.queue.countP (fun command => command.origin = origin) ≤ 1 := by
  cases found : world.find origin with
  | some i =>
    have own : world.queue.countP (fun command => command.origin = origin) =
        world.outstanding (world.slots i).session := by
      refine List.countP_congr fun command member => ?_
      simpa using settled.own_iff found (noted_of_queue member)
    rw [own]
    exact (settled.accounted _ (settled.ours found)).few
  | none =>
    have none : world.queue.countP (fun command => command.origin = origin) = 0 := by
      refine List.countP_eq_zero.mpr fun command member => ?_
      simpa using settled.none_of_missing found (noted_of_queue member)
    omega

/-- The counter of dropped lines, modulo 2^32. -/
def Counted (world : Responder E) : Prop :=
  world.linesDroppedBusy = UInt32.ofNat world.dropped.length

private theorem counted_refuse {world : Responder E} (counted : Counted world) (config : Config E)
    (pass : Pass) (out : Text) (typing : Typing E) (line : Text) :
    Counted (refuseLine config world pass out typing line) := by
  have more : (refuseLine config world pass out typing line).dropped.length =
      world.dropped.length + 1 :=
    List.length_append
  have busy : (refuseLine config world pass out typing line).linesDroppedBusy =
      world.linesDroppedBusy + 1 := rfl
  unfold Counted
  rw [more, busy, counted, UInt32.ofNat_add]
  rfl

private theorem counted_submit {world : Responder E} (counted : Counted world) (config : Config E)
    (pass : Pass) (out : Text) (typing : Typing E) (line : Text) (accepted : Bool) :
    Counted (submitLine config world pass out typing line accepted) := by
  cases accepted with
  | true => exact counted
  | false => exact counted_refuse counted config pass out typing line

private theorem counted_step {config : Config E} {world next : Responder E}
    (counted : Counted world)
    (stepped : step config world event = some next) : Counted next := by
  cases moved_of_step stepped with
  | quiet quiet =>
    unfold Counted
    rw [quiet.busy, quiet.dropped]
    exact counted
  | given _ _ allocated =>
    unfold Counted
    rw [allocated.busy, allocated.dropped]
    exact counted
  | unbound target locked => exact counted
  | @answered command rest queued text status =>
    obtain ⟨_, _, _, _, _, dropped, busy⟩ :=
      deliver_kept { world with queue := rest } command.origin text status
    unfold Counted
    rw [dropped, busy]
    exact counted
  | took idle used now => exact counted
  | began taken accepted =>
    unfold pumpBegin
    dsimp only
    split
    · exact counted_submit counted config _ _ _ _ accepted
    · exact counted
  | @polled out pass polling accepted =>
    unfold pumpPoll takeLine
    dsimp only
    split
    · rename_i editor emitted line polled
      have typed : Counted (world.typeLine pass line) := counted
      split
      · split
        · exact counted
        · exact counted_refuse typed config _ _ _ line
      · exact counted_submit typed config _ _ _ line accepted
    · exact counted

/-- What the pass makes of the line an origin has waiting, once the result is in:
the line goes to the shell, or is dropped and counted when the queue refuses it. -/
def Released (config : Config E) (world : Responder E) (pass : Pass) (line : Text)
    (accepted : Bool) : Prop :=
  let next := world.pumpBegin config pass accepted
  next.heldLine pass.origin = [] ∧
    if accepted then
      next.submitted = world.submitted ++ [⟨pass.origin, pass.session, line⟩] ∧
        (next.typings pass.index).awaitingResult = true
    else
      next.dropped = world.dropped ++ [⟨pass.origin, pass.session, line⟩] ∧
        next.linesDroppedBusy = world.linesDroppedBusy + 1

private theorem submit_released (config : Config E) (world : Responder E) (pass : Pass) (out : Text)
    (typing : Typing E) (line : Text) (accepted : Bool) :
    if accepted then
      (submitLine config world pass out typing line accepted).submitted =
          world.submitted ++ [⟨pass.origin, pass.session, line⟩] ∧
        ((submitLine config world pass out typing line accepted).typings
          pass.index).awaitingResult = true
    else
      (submitLine config world pass out typing line accepted).dropped =
          world.dropped ++ [⟨pass.origin, pass.session, line⟩] ∧
        (submitLine config world pass out typing line accepted).linesDroppedBusy =
          world.linesDroppedBusy + 1 := by
  cases accepted with
  | true =>
    have self := acceptLine_self world pass out typing line
    exact ⟨rfl, congrArg Typing.awaitingResult self⟩
  | false => exact ⟨rfl, rfl⟩

private theorem Settled.released {world : Responder E} {pass : Pass}
    (settled : Settled pass.origin world)
    (config : Config E) (taken : world.pump = .taken pass) (came : pass.result.isSome = true)
    (held : world.heldLine pass.origin = [line]) (accepted : Bool) :
    Released config world pass line accepted := by
  have ordered := settled.sound.ordered
  have under : world.pump.pass = some pass := by rw [taken]; rfl
  obtain ⟨used, same, numbered⟩ := settled.sole pass.session pass.index (ordered.pass pass under)
  have found : world.find pass.origin = some pass.index := by
    rw [← same]
    exact ordered.find_of_used used
  have owns : (world.typings pass.index).owner = some pass.session ∧
      waiting (world.typings pass.index).pendingLine = [line] := by
    unfold heldLine at held
    rw [found] at held
    dsimp only at held
    rw [numbered] at held
    split at held
    · rename_i owns
      exact ⟨owns, held⟩
    · contradiction
  have pending : (world.typings pass.index).pendingLine = line ∧ line ≠ [] := by
    have waits := owns.2
    unfold waiting at waits
    split at waits
    · contradiction
    · rename_i some
      cases waits
      exact ⟨rfl, some⟩
  have needs := (ordered.taken pass taken).mpr owns.1
  have restarted : (world.typings pass.index).restart config pass = world.typings pass.index := by
    simp [Typing.restart, needs]
  obtain ⟨_, awaiting, kept⟩ := prepare_spec config (world.typings pass.index) pass
  rw [restarted, pending.1] at kept
  rw [came, Bool.not_true, Bool.and_false] at awaiting
  have begun : world.pumpBegin config pass accepted =
      submitLine config world pass ((world.typings pass.index).prepare config pass).2
        { ((world.typings pass.index).prepare config pass).1 with pendingLine := [] } line
        accepted := by
    unfold pumpBegin
    dsimp only
    rw [kept, if_pos ⟨awaiting, pending.2⟩]
  refine ⟨?_, ?_⟩
  · have slots := (passed_begin ordered taken config accepted).slots
    have again : (world.pumpBegin config pass accepted).find pass.origin = some pass.index := by
      rw [← found]
      exact find_congr (fun i => by rw [slots]; exact ⟨rfl, rfl⟩) pass.origin
    have none : ((world.pumpBegin config pass accepted).typings pass.index).pendingLine = [] := by
      rw [begun]
      exact submit_pending rfl config pass _ line accepted
    unfold heldLine
    rw [again]
    simp [waiting, none]
  · rw [begun]
    exact submit_released config world pass _ _ line accepted

/-- A result that is ready is what the next pass over the slot takes. -/
theorem take_result {config : Config E} {world next : Responder E}
    (stepped : step config world (.pumpTake i now) = some next)
    (ready : (world.slots i).resultReady = true) :
    next.typings = world.typings ∧ ∃ pass, next.pump = .taken pass ∧ pass.index = i ∧
      pass.origin = (world.slots i).origin ∧ pass.result = some (world.slots i).pendingOut := by
  simp only [step] at stepped
  split at stepped
  · simp only [Option.ite_none_right_eq_some, Option.some.injEq] at stepped
    obtain ⟨_, rfl⟩ := stepped
    exact ⟨rfl, _, rfl, rfl, rfl, if_pos ready⟩
  · contradiction

/-- The lines of an origin: one command in flight; a line held only behind it;
the submitted lines and the one held in typed order; every line that is not empty
submitted, dropped or held; every dropped line counted; and the held line handed
on by the pass that takes the result. -/
structure LinesKept (config : Config E) (origin : Origin) (world : Responder E) : Prop where
  single : world.queue.countP (fun command => command.origin = origin) ≤ 1
  held : ∀ i, (world.typings i).pendingLine ≠ [] → (world.typings i).awaitingResult = true
  ordered : (linesFrom origin world.submitted ++ world.heldLine origin).Sublist
    (linesFrom origin world.typed)
  accounted : ∀ line, line ≠ [] → (linesFrom origin world.typed).count line =
    (linesFrom origin world.submitted).count line + (linesFrom origin world.dropped).count line +
      (world.heldLine origin).count line
  counted : world.linesDroppedBusy = UInt32.ofNat world.dropped.length
  taken : ∀ i now next, step config world (.pumpTake i now) = some next →
    (world.slots i).resultReady = true →
      next.typings = world.typings ∧ ∃ pass, next.pump = .taken pass ∧ pass.index = i ∧
        pass.origin = (world.slots i).origin ∧ pass.result = some (world.slots i).pendingOut
  released : ∀ pass line accepted, world.pump = .taken pass → pass.origin = origin →
    pass.result.isSome = true → world.heldLine origin = [line] →
      Released config world pass line accepted

/-- While an origin's slot stays, its lines are kept. -/
theorem lines_kept {config : Config E} {editor : E} {events : List Event} {finish : Responder E}
    {origin : Origin} (ran : run (step config) (start editor) events = some finish)
    (stays : Along (step config) (Stays origin) (start editor) events) :
    LinesKept config origin finish := by
  have settled : Settled origin finish :=
    run_invariant_along settled_step (settled_start origin editor) stays ran
  have counted : Counted finish := run_invariant counted_step (by rfl) ran
  have lines := settled.lines
  refine ⟨settled.few, settled.sound.held, lines.ordered, lines.counted, counted, ?_, ?_⟩
  · intro i now next stepped ready
    exact take_result stepped ready
  · rintro pass line accepted taken rfl came held
    exact settled.released config taken came held accepted

/-- Two lines in one message: the second waits behind the first, whose result
is taken at the end. -/
def typedAhead : List Event :=
  [.terminalIn .tcp peer 1 ['a', '\r', 'b', '\r'] true, .pumpTake firstSlot 2,
    .pumpBegin true, .pumpPoll true, .pumpPoll true, .pumpPoll true, .commandResult [] 0,
    .pumpTake firstSlot 3]

private theorem typedAhead_stays : Along (step plain) (Stays peer) (start []) typedAhead :=
  along_of_step (fun _ _ _ used => by contradiction) rfl
    (along_of_step trivial rfl (along_of_step trivial rfl (along_of_step trivial rfl
      (along_of_step trivial rfl (along_of_step trivial rfl (along_of_step trivial rfl
        (along_of_step trivial rfl trivial)))))))

theorem lines_kept_typedAhead : ∃ finish,
    run (step plain) (start []) typedAhead = some finish ∧ finish.heldLine peer = [['b']] ∧
      LinesKept plain peer finish :=
  ⟨_, rfl, rfl, lines_kept rfl typedAhead_stays⟩

/-- A line and an empty one behind it. -/
def typedBlank : List Event :=
  [.terminalIn .tcp peer 1 ['a', '\r', '\r'] true, .pumpTake firstSlot 2,
    .pumpBegin true, .pumpPoll true, .pumpPoll true]

/-- The empty line behind a command is neither held nor counted, and the held line
is not submitted when the queue is full as the result comes. -/
theorem some_line_is_not_kept :
    (¬ ∀ events finish, run (step plain) (start []) events = some finish →
        Along (step plain) (Stays peer) (start []) events →
          ∀ line, (linesFrom peer finish.typed).count line =
            (linesFrom peer finish.submitted).count line +
              (linesFrom peer finish.dropped).count line + (finish.heldLine peer).count line) ∧
      ¬ ∀ events finish pass line accepted, run (step plain) (start []) events = some finish →
        Along (step plain) (Stays peer) (start []) events → finish.pump = .taken pass →
          pass.origin = peer → pass.result.isSome = true → finish.heldLine peer = [line] →
            ⟨peer, pass.session, line⟩ ∈ (finish.pumpBegin plain pass accepted).submitted := by
  constructor
  · intro kept
    have stays : Along (step plain) (Stays peer) (start []) typedBlank :=
      along_of_step (fun _ _ _ used => by contradiction) rfl
        (along_of_step trivial rfl (along_of_step trivial rfl (along_of_step trivial rfl
          (along_of_step trivial rfl trivial))))
    have none := kept typedBlank _ rfl stays []
    exact absurd none (by decide)
  · intro submitted
    have member := submitted typedAhead _ _ ['b'] false rfl typedAhead_stays rfl rfl rfl rfl
    exact absurd member (by decide)

end Responder
end BallyOS.Terminal
