import BallyOS.Terminal.Accounts

/-! Whether a command's result stays with the session that submitted it. Results
come back under the origin alone; they do stay exactly as long as no origin is
given a new slot, and no pass submits into one, over a command of an earlier
session. -/
namespace BallyOS.Terminal
open Library

variable {E : Type}

namespace Responder

/-- The result of each outstanding command, delivered now, would reach only its
own session's slot. -/
def OwnResults (world : Responder E) : Prop :=
  ∀ command ∈ world.queue, ∀ i, world.find command.origin = some i →
    (world.slots i).session = command.session

/-- The slot of the pass's origin, if there is one, is still the one it found. -/
def Current (world : Responder E) (pass : Pass) : Prop :=
  ∀ i, world.find pass.origin = some i → (world.slots i).session = pass.session

/-- The pass submits the held line: a result came, for a line that is still held. -/
def Releases (world : Responder E) (pass : Pass) : Prop :=
  pass.needsReset = false ∧ pass.result.isSome ∧ (world.typings pass.index).pendingLine ≠ []

/-- The editor has a line, and no command is in flight. -/
def Submits (config : Config E) (world : Responder E) (pass : Pass) : Prop :=
  (world.typings pass.index).awaitingResult = false ∧
    (config.editor.poll (world.typings pass.index).editor).2.2.isSome

def Apart (config : Config E) (world : Responder E) : Event → Prop
  | .terminalIn _ origin _ plaintext locked =>
    plaintext ≠ [] → locked = true → world.find origin = none →
      ∀ command ∈ world.queue, command.origin ≠ origin
  | .pumpBegin accepted => ∀ pass, world.pump = .taken pass → accepted = true →
      world.Releases pass → world.Current pass
  | .pumpPoll accepted => ∀ pass out, world.pump = .polling pass out → accepted = true →
      Submits config world pass → world.Current pass
  | _ => True

theorem find_congr {before after : Responder E}
    (slots : ∀ i, (after.slots i).used = (before.slots i).used ∧
      (after.slots i).origin = (before.slots i).origin) (origin : Origin) :
    after.find origin = before.find origin := by
  unfold find
  congr 1
  funext i
  rw [(slots i).1, (slots i).2]

/-- Slots that stay, and a queue that at most shrinks. -/
theorem ownResults_of_slots {before after : Responder E} (own : OwnResults before)
    (slots : ∀ i, (after.slots i).used = (before.slots i).used ∧
      (after.slots i).origin = (before.slots i).origin ∧
      (after.slots i).session = (before.slots i).session)
    (queue : ∀ command ∈ after.queue, command ∈ before.queue) : OwnResults after := by
  intro command member i found
  rw [find_congr (fun j => ⟨(slots j).1, (slots j).2.1⟩)] at found
  rw [(slots i).2.2]
  exact own command (queue command member) i found

theorem deliver_slots (world : Responder E) (origin : Origin) (text : Text) (status : UInt8)
    (i : Fin 3) :
    ((world.deliverCommandOutput origin text status).slots i).used = (world.slots i).used ∧
      ((world.deliverCommandOutput origin text status).slots i).origin = (world.slots i).origin ∧
      ((world.deliverCommandOutput origin text status).slots i).session =
        (world.slots i).session := by
  unfold deliverCommandOutput
  split
  · rename_i j found
    by_cases here : i = j
    · subst here
      rw [setSlot_self]
      exact ⟨rfl, rfl, rfl⟩
    · rw [setSlot_other _ _ here]
      exact ⟨rfl, rfl, rfl⟩
  · exact ⟨rfl, rfl, rfl⟩

private theorem ownResults_unbind {world : Responder E} (ordered : Ordered world)
    (own : OwnResults world) (target : LinkTarget) (locked : Bool) :
    OwnResults (world.unbindTarget target locked) := by
  intro command member i found
  obtain ⟨used, origin⟩ := find_some found
  obtain ⟨before, same, session, _⟩ := (calmer_unbind world target locked).slots i used
  rw [session]
  apply own command member i
  rw [← origin, same]
  exact ordered.find_of_used before

/-- A slot given out anew is apart from every command that its origin has with
the shell. -/
theorem ownResults_allocated_iff {before after : Responder E} (ordered : Ordered before)
    (own : OwnResults before) (missing : before.find sender = none)
    (allocated : Allocated before sender i after) :
    OwnResults after ↔ ∀ command ∈ before.queue, command.origin ≠ sender := by
  have later := ordered_of_allocated ordered missing allocated
  constructor
  · intro apart command member same
    have found : after.find command.origin = some i := by
      rw [same, ← allocated.origin]
      exact later.find_of_used allocated.used
    have session := apart command (allocated.queue ▸ member) i found
    obtain ⟨j, known⟩ := ordered.noted command (by simp [noted, member])
    have old := lt_of_known known
    rw [← session, allocated.session] at old
    exact Nat.lt_irrefl _ old
  · intro apart command member j found
    rw [allocated.queue] at member
    obtain ⟨used, origin⟩ := find_some found
    have other : j ≠ i := by
      rintro rfl
      exact apart command member (origin.symm.trans allocated.origin)
    rw [allocated.others j other] at used origin ⊢
    apply own command member j
    rw [← origin]
    exact ordered.find_of_used used

/-- What a pass submits is apart when its origin's slot is still the pass's own. -/
theorem ownResults_passed_iff {pass : Pass} {before after : Responder E} {submitted : Prop}
    (own : OwnResults before) (slots : after.slots = before.slots)
    (queue : submitted ∧ (∃ line, after.queue =
        before.queue ++ [⟨pass.origin, pass.session, line⟩]) ∨
      ¬ submitted ∧ after.queue = before.queue) :
    OwnResults after ↔ (submitted → before.Current pass) := by
  have find : ∀ origin, after.find origin = before.find origin :=
    find_congr fun i => by rw [slots]; exact ⟨rfl, rfl⟩
  have kept : ∀ command ∈ before.queue, ∀ i, after.find command.origin = some i →
      (after.slots i).session = command.session := by
    intro command member i found
    rw [find] at found
    rw [slots]
    exact own command member i found
  rcases queue with ⟨submits, line, queue⟩ | ⟨submits, queue⟩
  · constructor
    · intro apart _ i found
      have mine := apart ⟨pass.origin, pass.session, line⟩ (by simp [queue]) i
        ((find pass.origin).trans found)
      rwa [slots] at mine
    · intro current command member i found
      rw [queue, List.mem_append, List.mem_singleton] at member
      rcases member with old | rfl
      · exact kept command old i found
      · rw [find] at found
        rw [slots]
        exact current submits i found
  · refine iff_of_true (fun command member => ?_) fun submitted => absurd submitted submits
    exact kept command (queue ▸ member)

/-- A line is submitted when the shell's queue takes it. -/
theorem submit_queue (config : Config E) (world : Responder E) (pass : Pass) (out : Text)
    (typing : Typing E) (line : Text) (accepted : Bool) :
    accepted = true ∧ (submitLine config world pass out typing line accepted).queue =
        world.queue ++ [⟨pass.origin, pass.session, line⟩] ∨
      accepted = false ∧ (submitLine config world pass out typing line accepted).queue =
        world.queue := by
  cases accepted with
  | true => exact Or.inl ⟨rfl, rfl⟩
  | false => exact Or.inr ⟨rfl, rfl⟩

private theorem begin_queue {world : Responder E} (held : Held world) (config : Config E)
    (pass : Pass)
    (accepted : Bool) :
    (accepted = true ∧ world.Releases pass) ∧ (∃ line,
        (world.pumpBegin config pass accepted).queue =
          world.queue ++ [⟨pass.origin, pass.session, line⟩]) ∨
      ¬ (accepted = true ∧ world.Releases pass) ∧
        (world.pumpBegin config pass accepted).queue = world.queue := by
  obtain ⟨_, awaiting, kept⟩ := prepare_spec config (world.typings pass.index) pass
  unfold pumpBegin
  dsimp only
  split
  · rename_i due
    rw [awaiting, kept] at due
    have releases : world.Releases pass := by
      cases needs : pass.needsReset with
      | true => simp [Typing.restart, needs] at due
      | false =>
        simp only [Typing.restart, needs, Bool.false_eq_true, ↓reduceIte] at due
        have waits := held pass.index due.2
        exact ⟨needs, by simpa [waits] using due.1, due.2⟩
    rcases submit_queue config world pass _ _ _ accepted with ⟨took, queue⟩ | ⟨refused, queue⟩
    · exact Or.inl ⟨⟨took, releases⟩, _, queue⟩
    · refine Or.inr ⟨fun takes => ?_, queue⟩
      rw [refused] at takes
      exact absurd takes.1 (by decide)
  · rename_i due
    refine Or.inr ⟨?_, rfl⟩
    rintro ⟨_, settled, came, line⟩
    refine due ⟨?_, ?_⟩
    · rw [awaiting, came]
      simp
    · rw [kept]
      simpa [Typing.restart, settled] using line

private theorem poll_queue (config : Config E) (world : Responder E) (pass : Pass) (out : Text)
    (accepted : Bool) :
    (accepted = true ∧ Submits config world pass) ∧ (∃ line,
        (world.pumpPoll config pass out accepted).queue =
          world.queue ++ [⟨pass.origin, pass.session, line⟩]) ∨
      ¬ (accepted = true ∧ Submits config world pass) ∧
        (world.pumpPoll config pass out accepted).queue = world.queue := by
  unfold pumpPoll Submits
  dsimp only
  split
  · rename_i editor emitted line polled
    unfold takeLine
    dsimp only
    split
    · rename_i busy
      refine Or.inr ⟨fun submits => ?_, ?_⟩
      · rw [busy] at submits
        exact absurd submits.2.1 (by decide)
      · split <;> rfl
    · rename_i free
      have idle : (world.typings pass.index).awaitingResult = false := by simpa using free
      rcases submit_queue config (world.typeLine pass line) pass (out ++ emitted)
        { world.typings pass.index with editor } line accepted with ⟨took, queue⟩ | ⟨refused, queue⟩
      · exact Or.inl ⟨⟨took, idle, by rw [polled]; rfl⟩, line, queue⟩
      · refine Or.inr ⟨fun submits => ?_, queue⟩
        rw [refused] at submits
        exact absurd submits.1 (by decide)
  · rename_i editor emitted polled
    refine Or.inr ⟨fun submits => ?_, rfl⟩
    rw [polled] at submits
    exact absurd submits.2.2 Bool.false_ne_true

/-- Results stay with their sessions over a step exactly when the step is apart. -/
theorem ownResults_step_iff {config : Config E} {world : Responder E} (ordered : Ordered world)
    (held : Held world) (own : OwnResults world) (event : Event) :
    (∀ next, step config world event = some next → OwnResults next) ↔
      Apart config world event := by
  constructor
  · intro keeps
    cases event with
    | terminalIn target origin timestamp plaintext locked =>
      rintro bytes rfl missing
      have allocated := onTerminalIn_new missing bytes target timestamp
      exact (ownResults_allocated_iff ordered own missing allocated).mp (keeps _ rfl)
    | pumpBegin accepted =>
      intro pass taken took releases
      have stepped : step config world (.pumpBegin accepted) =
          some (world.pumpBegin config pass accepted) := by
        simp only [step, taken]
      have slots := (passed_begin ordered taken config accepted).slots
      have queue := begin_queue held config pass accepted
      exact (ownResults_passed_iff own slots queue).mp (keeps _ stepped) ⟨took, releases⟩
    | pumpPoll accepted =>
      intro pass out polling took submits
      have stepped : step config world (.pumpPoll accepted) =
          some (world.pumpPoll config pass out accepted) := by
        simp only [step, polling]
      have slots := (passed_poll ordered polling config accepted).slots
      have queue := poll_queue config world pass out accepted
      exact (ownResults_passed_iff own slots queue).mp (keeps _ stepped) ⟨took, submits⟩
    | _ => trivial
  · intro apart next stepped
    cases moved_of_step stepped with
    | quiet quiet =>
      refine ownResults_of_slots own (fun i => ?_) (fun command => quiet.queue ▸ id)
      obtain ⟨used, origin, session, _⟩ := quiet.slots i
      exact ⟨used, origin, session⟩
    | given bytes missing allocated =>
      exact (ownResults_allocated_iff ordered own missing allocated).mpr (apart bytes rfl missing)
    | unbound target locked => exact ownResults_unbind ordered own target locked
    | @answered command rest queued text status =>
      refine ownResults_of_slots own (fun i => ?_) (fun other member => ?_)
      · exact deliver_slots { world with queue := rest } command.origin text status i
      · rw [(deliver_kept { world with queue := rest } command.origin text status).1] at member
        rw [queued]
        exact List.mem_cons_of_mem command member
    | took idle used now =>
      exact ownResults_of_slots own (fun j => pumpTake_kept world _ j now) fun _ => id
    | @began pass taken accepted =>
      have slots := (passed_begin ordered taken config accepted).slots
      have queue := begin_queue held config pass accepted
      apply (ownResults_passed_iff own slots queue).mpr
      rintro ⟨took, releases⟩
      exact apart pass taken took releases
    | @polled out pass polling accepted =>
      have slots := (passed_poll ordered polling config accepted).slots
      have queue := poll_queue config world pass out accepted
      apply (ownResults_passed_iff own slots queue).mpr
      rintro ⟨took, submits⟩
      exact apart pass out polling took submits

/-- What every step keeps. -/
structure Sound (world : Responder E) : Prop where
  ordered : Ordered world
  held : Held world

theorem sound_step {config : Config E} {world next : Responder E} (sound : Sound world)
    (stepped : step config world event = some next) : Sound next :=
  ⟨ordered_step sound.ordered stepped, held_step sound.held sound.ordered stepped⟩

theorem sound_start (editor : E) : Sound (start editor) :=
  ⟨ordered_start editor, held_start editor⟩

private theorem reachesOwn_of_ownResults {world : Responder E} (own : OwnResults world)
    (session : Nat)
    (event : Event) : ReachesOwn session world event := by
  cases event with
  | commandResult text status =>
    intro command oldest i found same
    exact (own command (List.mem_of_mem_head? oldest) i found).symm.trans same
  | _ => trivial

/-- A result that a pass has taken was the session's last command. -/
theorem Accounted.outstanding_of_taken {world : Responder E} {pass : Pass}
    (accounted : Accounted world pass.session)
    (taken : world.pump = .taken pass) (came : pass.result.isSome = true) :
    world.outstanding pass.session = 0 := by
  have answers : world.pump.answers pass.session = 1 := by
    rw [taken, Pump.answers_taken, if_pos came]
  by_cases owns : (world.typings pass.index).owner = some pass.session
  · have flight := (accounted.owned pass.index owns).flight
    have bit := Bool.toNat_le (world.typings pass.index).awaitingResult
    omega
  · have under : world.pump.pass = some pass := by rw [taken]; rfl
    have flight := (accounted.unborn pass.index owns (Or.inr ⟨pass, under, rfl, rfl⟩)).flight
    simp only [Bool.toNat_false] at flight
    omega

/-- What a run keeps whose steps are apart. -/
structure Isolated (world : Responder E) : Prop where
  sound : Sound world
  own : OwnResults world
  accounted : ∀ session, Accounted world session

private theorem isolated_step {config : Config E} {world next : Responder E} {event : Event}
    (isolated : Isolated world) (apart : Apart config world event)
    (stepped : step config world event = some next) : Isolated next where
  sound := sound_step isolated.sound stepped
  own := (ownResults_step_iff isolated.sound.ordered isolated.sound.held isolated.own event).mpr
    apart next stepped
  accounted session := accounted_step isolated.sound.ordered isolated.sound.held
    (isolated.accounted session) (reachesOwn_of_ownResults isolated.own session event) stepped

private theorem ownResults_start (editor : E) : OwnResults (start editor) :=
  fun _ member => by contradiction

private theorem isolated_start (editor : E) : Isolated (start editor) :=
  ⟨sound_start editor, ownResults_start editor, accounted_start editor⟩

/-- In every run whose steps are apart, results stay with their sessions: each
session has at most one command in flight, and a result that ends a wait was the
last one. Such runs are exactly those whose steps leave each outstanding result
its own session's slot. -/
theorem isolated_along (config : Config E) (editor : E) (events : List Event) :
    (Along (step config) (fun world event =>
        ∀ next, step config world event = some next → OwnResults next) (start editor) events ↔
      Along (step config) (Apart config) (start editor) events) ∧
    (Along (step config) (Apart config) (start editor) events →
      Along (step config) (fun world event => ∀ session, ReachesOwn session world event)
          (start editor) events ∧
        ∀ finish, run (step config) (start editor) events = some finish →
          (∀ session, finish.outstanding session ≤ 1) ∧
          ∀ pass, finish.pump = .taken pass → pass.result.isSome = true →
            finish.outstanding pass.session = 0) := by
  have keeps : ∀ {world : Responder E} {event : Event}, Sound world → OwnResults world →
      ((∀ next, step config world event = some next → OwnResults next) ↔
        Apart config world event) :=
    fun sound own => ownResults_step_iff sound.ordered sound.held own _
  refine ⟨along_keeps_iff sound_step keeps (sound_start editor) (ownResults_start editor) events,
    fun apart => ⟨?_, fun finish ran => ?_⟩⟩
  · have reaches : ∀ {world : Responder E} {event : Event}, Isolated world →
        ∀ session, ReachesOwn session world event :=
      fun isolated session => reachesOwn_of_ownResults isolated.own session _
    exact along_of_invariant isolated_step reaches (isolated_start editor) apart
  · have isolated : Isolated finish :=
      run_invariant_along isolated_step (isolated_start editor) apart ran
    refine ⟨fun session => (isolated.accounted session).few, fun pass taken came => ?_⟩
    exact (isolated.accounted pass.session).outstanding_of_taken taken came

/-- The responder as the robot configures it, with the plain editor. -/
def plain : Config Text := ⟨plainEditor, "bally> ".toList⟩

def peer : Origin := ⟨7, 1⟩

/-- A terminal submits a line, its connection is lost and made again, and it
submits another, all before the shell has finished the first. -/
def reconnected : List Event :=
  [.terminalIn .tcp peer 1 ['a', '\r'] true, .pumpTake firstSlot 2, .pumpBegin true,
    .pumpPoll true, .pumpPoll true, .unbind .tcp true,
    .terminalIn .tcp peer 3 ['b', '\r'] true, .pumpTake firstSlot 4, .pumpBegin true,
    .pumpPoll true, .pumpPoll true]

/-- Then the first result comes, and the terminal submits a third. -/
def overrun : List Event :=
  reconnected ++ [.commandResult [] 0, .terminalIn .tcp peer 5 ['c', '\r'] true,
    .pumpTake firstSlot 6, .pumpBegin true, .pumpPoll true]

theorem late_result_crosses :
    (¬ ∀ events, Along (step plain) (fun world event => ∀ session, ReachesOwn session world event)
        (start []) events) ∧
      ¬ ∀ events finish, run (step plain) (start []) events = some finish →
        ∀ session, finish.outstanding session ≤ 1 := by
  constructor
  · intro every
    obtain ⟨world, ran, oldest, found, later⟩ : ∃ world,
        run (step plain) (start []) reconnected = some world ∧
          world.queue.head? = some ⟨peer, 0, ['a']⟩ ∧ world.find peer = some 0 ∧
          (world.slots 0).session = 1 := ⟨_, rfl, rfl, rfl, rfl⟩
    have reaches : ∀ session, ReachesOwn session world (.commandResult [] 0) :=
      along_at (every (reconnected ++ [.commandResult [] 0])) ran
    exact absurd (reaches 1 ⟨peer, 0, ['a']⟩ oldest 0 found later) (by decide)
  · intro few
    obtain ⟨world, ran, twice⟩ : ∃ world,
        run (step plain) (start []) overrun = some world ∧ world.outstanding 1 = 2 :=
      ⟨_, rfl, rfl⟩
    have := few overrun world ran 1
    omega

/-- The pass under way is over the slot its origin has, in the slot's session. -/
def steady (world : Responder E) : Bool :=
  world.pump.pass.all fun pass =>
    world.find pass.origin = some pass.index ∧ (world.slots pass.index).session = pass.session

private theorem current_of_steady {world : Responder E} {pass : Pass} (steady : world.steady = true)
    (under : world.pump.pass = some pass) : world.Current pass := by
  simp only [Responder.steady, under, Option.all_some, decide_eq_true_eq] at steady
  intro i found
  rw [steady.1] at found
  cases found
  exact steady.2

private theorem apart_begin {world : Responder E} {config : Config E} (steady : world.steady = true)
    :
    Apart config world (.pumpBegin accepted) := by
  intro pass taken _ _
  exact current_of_steady steady (by rw [taken]; rfl)

private theorem apart_poll {world : Responder E} {config : Config E} (steady : world.steady = true)
    :
    Apart config world (.pumpPoll accepted) := by
  intro pass out polling _ _
  exact current_of_steady steady (by rw [polling]; rfl)

/-- A pass over the terminal's slot that submits a line, and one that does not. -/
def submittingPass (now : UInt64) : List Event :=
  [.pumpTake firstSlot now, .pumpBegin true, .pumpPoll true, .pumpPoll true]

def quietPass (now : UInt64) : List Event :=
  [.pumpTake firstSlot now, .pumpBegin true, .pumpPoll true]

/-- A terminal gets the result of its first line, and loses its connection over the
second; that result comes before it is back. In its new slot it submits again,
and a pass has just taken the result. -/
def resumed : List Event :=
  .terminalIn .tcp peer 1 ['a', '\r'] true :: submittingPass 2 ++
    .commandResult ['o', 'k'] 0 :: quietPass 3 ++
    .terminalIn .tcp peer 4 ['b', '\r'] true :: submittingPass 5 ++
    .unbind .tcp true :: .commandResult ['l', 'o', 's', 't'] 0 :: .bind .tcp ::
    .terminalIn .tcp peer 6 ['c', '\r'] true :: submittingPass 7 ++
    [.commandResult ['o', 'k'] 0, .pumpTake firstSlot 8]

theorem isolated_along_resumed :
    ∃ finish pass, run (step plain) (start []) resumed = some finish ∧
      finish.submitted = [⟨peer, 0, ['a']⟩, ⟨peer, 0, ['b']⟩, ⟨peer, 1, ['c']⟩] ∧
      finish.pump = .taken pass ∧ pass.session = 1 ∧ pass.result.isSome = true ∧
      (∀ session, finish.outstanding session ≤ 1) ∧ finish.outstanding pass.session = 0 := by
  have apart : Along (step plain) (Apart plain) (start []) resumed := by
    refine along_of_step (fun _ _ _ _ member => by contradiction) rfl ?_
    refine along_of_step trivial rfl (along_of_step (apart_begin rfl) rfl ?_)
    refine along_of_step (apart_poll rfl) rfl (along_of_step (apart_poll rfl) rfl ?_)
    refine along_of_step trivial rfl (along_of_step trivial rfl ?_)
    refine along_of_step (apart_begin rfl) rfl (along_of_step (apart_poll rfl) rfl ?_)
    refine along_of_step (fun _ _ missing => by contradiction) rfl ?_
    refine along_of_step trivial rfl (along_of_step (apart_begin rfl) rfl ?_)
    refine along_of_step (apart_poll rfl) rfl (along_of_step (apart_poll rfl) rfl ?_)
    refine along_of_step trivial rfl (along_of_step trivial rfl (along_of_step trivial rfl ?_))
    refine along_of_step (fun _ _ _ _ member => by contradiction) rfl ?_
    refine along_of_step trivial rfl (along_of_step (apart_begin rfl) rfl ?_)
    refine along_of_step (apart_poll rfl) rfl (along_of_step (apart_poll rfl) rfl ?_)
    exact along_of_step trivial rfl (along_of_step trivial rfl trivial)
  have isolated := ((isolated_along plain [] resumed).2 apart).2 _ rfl
  exact ⟨_, _, rfl, rfl, rfl, rfl, rfl, isolated.1, isolated.2 _ rfl rfl⟩

end Responder
end BallyOS.Terminal
