import BallyOS.Library.Backlog
import BallyOS.Terminal.Sessions

/-! What a session has outstanding: a command with the shell, or its result on the
way back, and the line held behind it. The account of the lines goes with it. -/
namespace BallyOS.Terminal
open Library

variable {E : Type}

/-- The lines of one session among the commands, in order. -/
def linesOf (session : Nat) (commands : List Command) : List Text :=
  (commands.filter fun command => command.session = session).map Command.line

@[simp] theorem linesOf_append (session : Nat) (first second : List Command) :
    linesOf session (first ++ second) = linesOf session first ++ linesOf session second := by
  simp [linesOf]

@[simp] theorem linesOf_own (origin : Origin) (session : Nat) (line : Text) :
    linesOf session [⟨origin, session, line⟩] = [line] := by
  simp [linesOf]

/-- The line held behind the command in flight; an empty one is none. -/
def waiting (pendingLine : Text) : List Text :=
  if pendingLine = [] then [] else [pendingLine]

/-- The result the slot holds for a session. -/
def Slot.answers (slot : Slot) (session : Nat) : Nat :=
  if slot.used ∧ slot.session = session ∧ slot.resultReady then 1 else 0

/-- The result a pass has taken for a session. -/
def Pump.answers (pump : Pump) (session : Nat) : Nat :=
  match pump with
  | .taken pass => if pass.session = session ∧ pass.result.isSome then 1 else 0
  | _ => 0

namespace Responder

/-- The commands of a session that the shell has not finished. -/
def outstanding (world : Responder E) (session : Nat) : Nat :=
  world.queue.countP fun command => command.session = session

/-- A session may owe one command or result while it waits, besides the results
that are `coming`; its lines are accounted for with those that `wait`. -/
structure Owes (world : Responder E) (i : Fin 3) (session coming : Nat) (awaiting : Bool)
    (wait : List Text) : Prop where
  flight : world.outstanding session + (world.slots i).answers session + coming ≤ awaiting.toNat
  lines : Backlog [] (linesOf session world.typed) (linesOf session world.submitted)
    (linesOf session world.dropped) wait

/-- A slot or the pass over it belongs to the session. -/
def Refers (world : Responder E) (i : Fin 3) (session : Nat) : Prop :=
  (world.slots i).used = true ∧ (world.slots i).session = session ∨
    ∃ pass, world.pump.pass = some pass ∧ pass.index = i ∧ pass.session = session

/-- Once a pass has reset the typing for a session, the typing knows what the
session has outstanding; before that the session has nothing. -/
structure Accounted (world : Responder E) (session : Nat) : Prop where
  few : world.outstanding session ≤ 1
  owned : ∀ i, (world.typings i).owner = some session →
    world.Owes i session (world.pump.answers session) (world.typings i).awaitingResult
      (waiting (world.typings i).pendingLine)
  unborn : ∀ i, (world.typings i).owner ≠ some session → world.Refers i session →
    world.Owes i session (world.pump.answers session) false []

/-- A line is held only behind a command in flight. -/
def Held (world : Responder E) : Prop :=
  ∀ i, (world.typings i).pendingLine ≠ [] → (world.typings i).awaitingResult = true

theorem Pump.answers_taken (pass : Pass) :
    (Pump.taken pass).answers pass.session = if pass.result.isSome then 1 else 0 := by
  simp [Pump.answers]

private theorem answers_untaken {pump : Pump} (untaken : ∀ pass, pump ≠ .taken pass) (session : Nat)
    :
    pump.answers session = 0 := by
  cases pump with
  | taken pass => exact absurd rfl (untaken pass)
  | idle => rfl
  | polling pass out => rfl

/-- A session that has at most what it had, in the same hands. -/
structure Eased (before after : Responder E) (session : Nat) : Prop where
  outstanding : after.outstanding session ≤ before.outstanding session
  due : ∀ i, before.Refers i session ∨ (before.typings i).owner = some session →
    after.outstanding session + (after.slots i).answers session + after.pump.answers session ≤
      before.outstanding session + (before.slots i).answers session + before.pump.answers session
  refers : ∀ i, after.Refers i session → before.Refers i session
  typings : after.typings = before.typings
  typed : after.typed = before.typed
  submitted : after.submitted = before.submitted
  dropped : after.dropped = before.dropped

private theorem accounted_of_eased {before after : Responder E}
    (accounted : Accounted before session)
    (eased : Eased before after session) : Accounted after session where
  few := Nat.le_trans eased.outstanding accounted.few
  owned i owns := by
    rw [eased.typings] at owns ⊢
    have owes := accounted.owned i owns
    refine ⟨Nat.le_trans (eased.due i (Or.inr owns)) owes.flight, ?_⟩
    rw [eased.typed, eased.submitted, eased.dropped]
    exact owes.lines
  unborn i other refers := by
    rw [eased.typings] at other
    have owes := accounted.unborn i other (eased.refers i refers)
    refine ⟨Nat.le_trans (eased.due i (Or.inl (eased.refers i refers))) owes.flight, ?_⟩
    rw [eased.typed, eased.submitted, eased.dropped]
    exact owes.lines

private theorem outstanding_eq {before after : Responder E} (queue : after.queue = before.queue)
    (session : Nat) : after.outstanding session = before.outstanding session := by
  unfold outstanding
  rw [queue]

private theorem refers_of_slots {before after : Responder E}
    (slots : ∀ i, (after.slots i).used = true → (before.slots i).used = true ∧
      (after.slots i).session = (before.slots i).session)
    (pump : after.pump = before.pump) (refers : after.Refers i session) :
    before.Refers i session := by
  rcases refers with ⟨used, same⟩ | under
  · obtain ⟨use, kept⟩ := slots i used
    exact Or.inl ⟨use, kept ▸ same⟩
  · rw [pump] at under
    exact Or.inr under

private theorem eased_quiet {before after : Responder E} (quiet : Quiet before after)
    (session : Nat) :
    Eased before after session where
  outstanding := Nat.le_of_eq (outstanding_eq quiet.queue session)
  due i _ := by
    obtain ⟨used, _, same, _, result⟩ := quiet.slots i
    rw [outstanding_eq quiet.queue, quiet.pump]
    unfold Slot.answers
    rw [used, same, result]
  refers i := by
    refine refers_of_slots (fun j used => ?_) quiet.pump
    obtain ⟨use, _, same, _⟩ := quiet.slots j
    exact ⟨use ▸ used, same⟩
  typings := quiet.typings
  typed := quiet.typed
  submitted := quiet.submitted
  dropped := quiet.dropped

private theorem eased_unbind (world : Responder E) (target : LinkTarget) (locked : Bool)
    (session : Nat) :
    Eased world (world.unbindTarget target locked) session where
  outstanding := Nat.le_refl _
  due i _ := by
    have fewer : ((world.unbindTarget target locked).slots i).answers session ≤
        (world.slots i).answers session := by
      simp only [unbindTarget]
      split
      · simp [Slot.answers]
      · exact Nat.le_refl _
    exact Nat.add_le_add_right (Nat.add_le_add_left fewer _) _
  refers i := by
    refine refers_of_slots (fun j used => ?_) rfl
    obtain ⟨use, _, same, _⟩ := (calmer_unbind world target locked).slots j used
    exact ⟨use, same⟩
  typings := rfl
  typed := rfl
  submitted := rfl
  dropped := rfl

private theorem allocated_due {before after : Responder E}
    (allocated : Allocated before sender i after)
    (session : Nat) (j : Fin 3) :
    after.outstanding session + (after.slots j).answers session + after.pump.answers session ≤
      before.outstanding session + (before.slots j).answers session +
        before.pump.answers session := by
  have fewer : (after.slots j).answers session ≤ (before.slots j).answers session := by
    by_cases here : j = i
    · subst here
      simp [Slot.answers, allocated.result]
    · rw [allocated.others j here]
  rw [outstanding_eq allocated.queue, allocated.pump]
  exact Nat.add_le_add_right (Nat.add_le_add_left fewer _) _

/-- A session that was there before has nothing to do with the slot given out. -/
theorem eased_allocated {before after : Responder E} (ordered : Ordered before)
    (allocated : Allocated before sender i after) (old : session < before.sessions.length) :
    Eased before after session where
  outstanding := Nat.le_of_eq (outstanding_eq allocated.queue session)
  due j _ := allocated_due allocated session j
  refers j refers := by
    rcases refers with ⟨used, same⟩ | under
    · have other : j ≠ i := by
        intro here
        have := (allocated.session_iff ordered used).mpr here
        omega
      rw [allocated.others j other] at used same
      exact Or.inl ⟨used, same⟩
    · rw [allocated.pump] at under
      exact Or.inr under
  typings := allocated.typings
  typed := allocated.typed
  submitted := allocated.submitted
  dropped := allocated.dropped

private theorem linesOf_absent {commands : List Command}
    (absent : ∀ command ∈ commands, command.session ≠ session) :
    linesOf session commands = [] := by
  have none : commands.filter (fun command => command.session = session) = [] :=
    List.filter_eq_nil_iff.mpr fun command member => by simpa using absent command member
  simp [linesOf, none]

/-- A session that does not exist yet has nothing. -/
theorem owes_absent {world : Responder E} (ordered : Ordered world)
    (absent : world.sessions.length ≤ session) (i : Fin 3) :
    world.Owes i session (world.pump.answers session) false [] := by
  have unknown : ∀ other, other < world.sessions.length → other ≠ session := by omega
  have unnoted : ∀ command ∈ world.noted, command.session ≠ session := by
    intro command member
    obtain ⟨j, known⟩ := ordered.noted command member
    exact unknown _ (lt_of_known known)
  have unqueued : world.outstanding session = 0 := by
    refine List.countP_eq_zero.mpr fun command member => ?_
    have := unnoted command (by simp [noted, member])
    simpa using this
  have unanswered : (world.slots i).answers session = 0 := by
    apply if_neg
    rintro ⟨used, same, _⟩
    exact unknown _ (lt_of_known (ordered.slot i used)) same
  have untaken : world.pump.answers session = 0 := by
    cases pumping : world.pump with
    | taken pass =>
      apply if_neg
      rintro ⟨same, _⟩
      have known := ordered.pass pass (by rw [pumping]; rfl)
      exact unknown _ (lt_of_known known) same
    | idle => rfl
    | polling pass out => rfl
  refine ⟨by simp [unqueued, unanswered, untaken], ?_⟩
  rw [linesOf_absent fun command member => unnoted command (by simp [noted, member]),
    linesOf_absent fun command member => unnoted command (by simp [noted, member]),
    linesOf_absent fun command member => unnoted command (by simp [noted, member])]
  exact Backlog.empty

private theorem accounted_absent {world : Responder E} (ordered : Ordered world)
    (absent : world.sessions.length ≤ session) : Accounted world session where
  few := by
    have owes := owes_absent ordered absent 0
    have := owes.flight
    simp only [Bool.toNat_false] at this
    omega
  owned i owns := by
    obtain ⟨origin, known⟩ := ordered.owner i session owns
    have := lt_of_known known
    omega
  unborn i _ _ := owes_absent ordered absent i

private theorem accounted_of_allocated {before after : Responder E} (ordered : Ordered before)
    (accounted : Accounted before session) (missing : before.find sender = none)
    (allocated : Allocated before sender i after) : Accounted after session := by
  rcases Nat.lt_trichotomy session before.sessions.length with old | rfl | future
  · exact accounted_of_eased accounted (eased_allocated ordered allocated old)
  · refine ⟨?_, fun j owns => ?_, fun j _ _ => ?_⟩
    · rw [outstanding_eq allocated.queue]
      exact accounted.few
    · rw [allocated.typings] at owns
      obtain ⟨origin, known⟩ := ordered.owner j _ owns
      exact absurd (lt_of_known known) (Nat.lt_irrefl _)
    · have owes := owes_absent ordered (Nat.le_refl _) j
      refine ⟨Nat.le_trans (allocated_due allocated _ j) owes.flight, ?_⟩
      rw [allocated.typed, allocated.submitted, allocated.dropped]
      exact owes.lines
  · apply accounted_absent (ordered_of_allocated ordered missing allocated)
    rw [allocated.sessions, List.length_append]
    exact future

/-- A pass takes the result along from the slot. -/
theorem eased_take {world : Responder E} (ordered : Ordered world) (idle : world.pump = .idle)
    (used : (world.slots i).used = true) (now : UInt64) (session : Nat) :
    Eased world (world.pumpTake i now) session where
  outstanding := Nat.le_refl _
  due j concerns := by
    have untaken : world.pump.answers session = 0 := by rw [idle]; rfl
    have taken : (world.pumpTake i now).pump.answers session = (world.slots i).answers session := by
      simp [pumpTake, Pump.answers, passOf, Slot.answers, used]
    have same : (world.pumpTake i now).outstanding session = world.outstanding session := rfl
    rw [untaken, taken, same]
    by_cases here : j = i
    · subst here
      have empty : ((world.pumpTake j now).slots j).answers session = 0 := by
        rw [pumpTake_self]
        simp [Slot.answers]
      omega
    · have elsewhere : (world.slots i).session ≠ session := by
        rintro rfl
        have known := ordered.slot i used
        rcases concerns with (⟨usedJ, sameJ⟩ | ⟨pass, under, _⟩) | owns
        · have other := ordered.slot j usedJ
          rw [sameJ, known] at other
          exact here (Prod.ext_iff.mp (Option.some.inj other)).2.symm
        · rw [idle] at under
          contradiction
        · obtain ⟨origin, other⟩ := ordered.owner j _ owns
          rw [known] at other
          exact here (Prod.ext_iff.mp (Option.some.inj other)).2.symm
      have none : (world.slots i).answers session = 0 := if_neg fun answer => elsewhere answer.2.1
      rw [pumpTake_other world now here]
      omega
  refers j refers := by
    rcases refers with ⟨usedJ, same⟩ | ⟨pass, under, index, same⟩
    · obtain ⟨use, _, kept⟩ := pumpTake_kept world i j now
      exact Or.inl ⟨use ▸ usedJ, kept ▸ same⟩
    · cases under
      cases index
      exact Or.inl ⟨used, same⟩
  typings := rfl
  typed := rfl
  submitted := rfl
  dropped := rfl

private theorem answers_le (slot : Slot) (session : Nat) : slot.answers session ≤ 1 := by
  unfold Slot.answers
  split <;> omega

/-- A result reaches the slot of its origin, whichever session that is. -/
theorem deliver_answers (world : Responder E) (origin : Origin) (text : Text) (status : UInt8)
    (session : Nat) (i : Fin 3) :
    ((world.deliverCommandOutput origin text status).slots i).answers session ≤
        (world.slots i).answers session ∨
      world.find origin = some i ∧ (world.slots i).session = session := by
  unfold deliverCommandOutput
  cases found : world.find origin with
  | none => exact Or.inl (Nat.le_refl _)
  | some j =>
    by_cases here : i = j
    · subst here
      by_cases same : (world.slots i).session = session
      · exact Or.inr ⟨rfl, same⟩
      · apply Or.inl
        rw [setSlot_self, Slot.answers, if_neg fun answer => same answer.2.1]
        exact Nat.zero_le _
    · rw [setSlot_other _ _ here]
      exact Or.inl (Nat.le_refl _)

/-- A delivery moves nothing but the slot. -/
theorem deliver_kept (world : Responder E) (origin : Origin) (text : Text) (status : UInt8) :
    (world.deliverCommandOutput origin text status).queue = world.queue ∧
      (world.deliverCommandOutput origin text status).typings = world.typings ∧
      (world.deliverCommandOutput origin text status).pump = world.pump ∧
      (world.deliverCommandOutput origin text status).typed = world.typed ∧
      (world.deliverCommandOutput origin text status).submitted = world.submitted ∧
      (world.deliverCommandOutput origin text status).dropped = world.dropped ∧
      (world.deliverCommandOutput origin text status).linesDroppedBusy =
        world.linesDroppedBusy := by
  unfold deliverCommandOutput
  split <;> exact ⟨rfl, rfl, rfl, rfl, rfl, rfl, rfl⟩

/-- A result that reaches only its own session takes the command's place. -/
theorem eased_result {world : Responder E} (queued : world.queue = command :: rest)
    (own : ∀ i, world.find command.origin = some i → (world.slots i).session = session →
      command.session = session) (text : Text) (status : UInt8) :
    Eased world ({ world with queue := rest }.deliverCommandOutput command.origin text status)
      session := by
  obtain ⟨queue, typings, pump, typed, submitted, dropped, _⟩ :=
    deliver_kept { world with queue := rest } command.origin text status
  have popped : world.outstanding session =
      rest.countP (fun command => command.session = session) +
        if command.session = session then 1 else 0 := by
    simp [outstanding, queued, List.countP_cons]
  have left : ({ world with queue := rest }.deliverCommandOutput command.origin text
      status).outstanding session = rest.countP fun command => command.session = session := by
    unfold outstanding
    rw [queue]
  constructor
  case outstanding =>
    rw [left, popped]
    omega
  case due =>
    intro i _
    rw [left, popped, pump]
    rcases deliver_answers { world with queue := rest } command.origin text status session i with
      fewer | ⟨found, same⟩
    · have := fewer
      dsimp only at this ⊢
      omega
    · have mine := own i found same
      have one := answers_le (({ world with queue := rest }.deliverCommandOutput command.origin
        text status).slots i) session
      rw [if_pos mine]
      dsimp only at one ⊢
      omega
  case refers =>
    intro i
    refine refers_of_slots (fun j used => ?_) pump
    obtain ⟨use, _, same, _⟩ :=
      (calmer_deliver { world with queue := rest } command.origin text status).slots j used
    exact ⟨use, same⟩
  case typings => exact typings
  case typed => exact typed
  case submitted => exact submitted
  case dropped => exact dropped

private theorem Grows.outstanding {pass : Pass} {before after : Responder E}
    (grows : Grows pass before.queue after.queue) (apart : pass.session ≠ session) :
    after.outstanding session = before.outstanding session := by
  obtain ⟨lines, same⟩ := grows
  have none : (lines.map (Command.mk pass.origin pass.session)).countP
      (fun command => command.session = session) = 0 := by
    refine List.countP_eq_zero.mpr fun command member => ?_
    obtain ⟨line, _, rfl⟩ := List.mem_map.mp member
    simpa using apart
  unfold Responder.outstanding
  rw [same, List.countP_append, none, Nat.add_zero]

private theorem Grows.linesOf {pass : Pass} (grows : Grows pass before after)
    (apart : pass.session ≠ session) :
    linesOf session after = linesOf session before := by
  obtain ⟨lines, rfl⟩ := grows
  have none : Terminal.linesOf session (lines.map (Command.mk pass.origin pass.session)) = [] := by
    refine linesOf_absent fun command member => ?_
    obtain ⟨line, _, rfl⟩ := List.mem_map.mp member
    exact apart
  rw [linesOf_append, none, List.append_nil]

private theorem Passed.untaken {pass : Pass} {before after : Responder E}
    (passed : Passed before pass after) (session : Nat) : after.pump.answers session = 0 := by
  refine answers_untaken (fun other taken => ?_) session
  rcases passed.pump with idle | ⟨out, polling⟩
  · rw [idle] at taken
    contradiction
  · rw [polling] at taken
    contradiction

/-- A pass over another session's slot. -/
theorem Owes.aside {pass : Pass} {before after : Responder E}
    (owes : before.Owes i session coming awaiting wait)
    (passed : Passed before pass after) (apart : pass.session ≠ session) :
    after.Owes i session (after.pump.answers session) awaiting wait where
  flight := by
    rw [Grows.outstanding passed.queue apart, passed.slots, passed.untaken]
    exact Nat.le_trans (Nat.add_le_add_left (Nat.zero_le _) _) owes.flight
  lines := by
    rw [passed.typed.linesOf apart, passed.submitted.linesOf apart, passed.dropped.linesOf apart]
    exact owes.lines

private theorem refers_known {world : Responder E} (ordered : Ordered world)
    (refers : world.Refers i session) : ∃ origin, world.sessions[session]? = some (origin, i) := by
  rcases refers with ⟨used, rfl⟩ | ⟨pass, under, rfl, rfl⟩
  · exact ⟨_, ordered.slot i used⟩
  · exact ⟨_, ordered.pass pass under⟩

private theorem index_unique {sessions : List (Origin × Fin 3)} {session : Nat}
    (first : sessions[session]? = some (origin, i))
    (second : sessions[session]? = some (other, j)) :
    i = j := by
  rw [first] at second
  exact (Prod.ext_iff.mp (Option.some.inj second)).2

private theorem Passed.still {pass : Pass} {before after : Responder E}
    (passed : Passed before pass after)
    (under : after.pump.pass = some other) : other = pass := by
  rcases passed.pump with idle | ⟨out, polling⟩
  · rw [idle] at under
    contradiction
  · rw [polling] at under
    exact (Option.some.inj under).symm

/-- A pass leaves a session accounted for when it does so for its own. -/
theorem accounted_of_passed {pass : Pass} {before after : Responder E} (ordered : Ordered before)
    (accounted : Accounted before session) (under : before.pump.pass = some pass)
    (passed : Passed before pass after)
    (own : session = pass.session → after.Owes pass.index session 0
      (after.typings pass.index).awaitingResult
      (waiting (after.typings pass.index).pendingLine)) : Accounted after session := by
  have later := ordered_of_passed ordered under passed
  by_cases mine : session = pass.session
  · have owes := own mine
    have known := ordered.pass pass under
    rw [← passed.sessions, ← mine] at known
    refine ⟨?_, fun i owns => ?_, fun i other refers => ?_⟩
    · have flight := owes.flight
      have bit := Bool.toNat_le (after.typings pass.index).awaitingResult
      omega
    · obtain ⟨origin, owned⟩ := later.owner i session owns
      cases index_unique known owned
      rw [passed.untaken]
      exact owes
    · obtain ⟨origin, referred⟩ := refers_known later refers
      cases index_unique known referred
      rw [passed.owner, mine] at other
      exact absurd rfl other
  · have apart : pass.session ≠ session := fun same => mine same.symm
    refine ⟨?_, fun i owns => ?_, fun i other refers => ?_⟩
    · rw [Grows.outstanding passed.queue apart]
      exact accounted.few
    · have elsewhere : i ≠ pass.index := by
        rintro rfl
        rw [passed.owner] at owns
        exact apart (Option.some.inj owns)
      rw [passed.others i elsewhere] at owns ⊢
      exact (accounted.owned i owns).aside passed apart
    · have slot : (before.slots i).used = true ∧ (before.slots i).session = session := by
        rcases refers with slot | ⟨next, running, _, same⟩
        · rwa [passed.slots] at slot
        · rw [passed.still running] at same
          exact absurd same apart
      have unowned : (before.typings i).owner ≠ some session := by
        by_cases here : i = pass.index
        · -- the pass works for an earlier session of this slot
          subst here
          have needs : (before.slots pass.index).needsEditorReset = true := by
            rw [← Bool.not_eq_false, ordered.current pass under slot.1, slot.2]
            exact Ne.symm apart
          rw [← slot.2]
          exact ordered.fresh pass.index slot.1 needs
        · rwa [passed.others i here] at other
      exact (accounted.unborn i unowned (Or.inl slot)).aside passed apart

private theorem Owes.settle {world : Responder E} (owes : world.Owes i session 0 awaiting wait)
    (pass : Pass) (out : Text) (typing : Typing E) :
    (world.settle pass out typing).Owes i session 0 awaiting wait :=
  ⟨owes.flight, owes.lines⟩

private theorem Owes.type {pass : Pass} {world : Responder E}
    (owes : world.Owes i pass.session 0 awaiting wait) (line : Text) :
    (world.typeLine pass line).Owes i pass.session 0 awaiting (wait ++ [line]) where
  flight := owes.flight
  lines := by
    unfold typeLine
    rw [linesOf_append, linesOf_own]
    exact owes.lines.making line

/-- The line that waits first goes to the shell. -/
theorem Owes.accept {pass : Pass} {world : Responder E}
    (owes : world.Owes i pass.session 0 false (line :: wait)) (out : Text) (typing : Typing E) :
    (world.acceptLine pass out typing line).Owes i pass.session 0 true wait where
  flight := by
    have more : (world.acceptLine pass out typing line).outstanding pass.session =
        world.outstanding pass.session + 1 := by
      simp [acceptLine, outstanding]
    have slots : (world.acceptLine pass out typing line).slots = world.slots := rfl
    have before := owes.flight
    rw [more, slots]
    simp only [Bool.toNat_false, Bool.toNat_true] at before ⊢
    omega
  lines := by
    have submitted : linesOf pass.session (world.acceptLine pass out typing line).submitted =
        linesOf pass.session world.submitted ++ [line] := by
      simp [acceptLine]
    rw [submitted]
    exact owes.lines.passing

/-- A line is dropped from behind those that wait. -/
theorem Owes.refuse {pass : Pass} {world : Responder E}
    (owes : world.Owes i pass.session 0 awaiting (wait ++ [line])) (config : Config E) (out : Text)
    (typing : Typing E) :
    (refuseLine config world pass out typing line).Owes i pass.session 0 awaiting wait where
  flight := owes.flight
  lines := by
    have dropped : linesOf pass.session (refuseLine config world pass out typing line).dropped =
        linesOf pass.session world.dropped ++ [line] := by
      simp [refuseLine]
    have left := owes.lines.dropping wait
    rw [List.append_nil] at left
    rw [dropped]
    exact left

/-- With no command in flight, the line that waits goes to the shell or is dropped. -/
theorem owes_submit {pass : Pass} {world : Responder E} {typing : Typing E}
    (owes : world.Owes pass.index pass.session 0 false [line])
    (free : typing.awaitingResult = false)
    (none : typing.pendingLine = []) (config : Config E) (out : Text) (accepted : Bool) :
    (submitLine config world pass out typing line accepted).Owes pass.index pass.session 0
      ((submitLine config world pass out typing line accepted).typings pass.index).awaitingResult
      (waiting
        ((submitLine config world pass out typing line accepted).typings pass.index).pendingLine) := by
  cases accepted with
  | true =>
    have self := acceptLine_self world pass out typing line
    simp only [submitLine, ↓reduceIte, self, none, waiting]
    exact owes.accept out typing
  | false =>
    have self := refuseLine_self config world pass out typing line
    simp only [submitLine, Bool.false_eq_true, ↓reduceIte, self, none, waiting, free]
    exact Owes.refuse owes config out typing

/-- A result that was taken ends the wait. -/
theorem owes_prepared {world : Responder E} {pass : Pass} (ordered : Ordered world)
    (accounted : Accounted world pass.session) (taken : world.pump = .taken pass)
    (config : Config E) :
    world.Owes pass.index pass.session 0
      ((world.typings pass.index).prepare config pass).1.awaitingResult
      (waiting ((world.typings pass.index).prepare config pass).1.pendingLine) := by
  have under : world.pump.pass = some pass := by rw [taken]; rfl
  have answers : world.pump.answers pass.session = if pass.result.isSome then 1 else 0 := by
    rw [taken]
    exact Pump.answers_taken pass
  obtain ⟨_, awaiting, held⟩ := prepare_spec config (world.typings pass.index) pass
  have restarted : world.Owes pass.index pass.session (if pass.result.isSome then 1 else 0)
      ((world.typings pass.index).restart config pass).awaitingResult
      (waiting ((world.typings pass.index).restart config pass).pendingLine) := by
    cases needs : pass.needsReset with
    | true =>
      have fresh : (world.typings pass.index).restart config pass =
          { editor := config.editor.reset (world.typings pass.index).editor
            owner := some pass.session } := by
        simp [Typing.restart, needs]
      have unowned : (world.typings pass.index).owner ≠ some pass.session := by
        intro owns
        have settled := (ordered.taken pass taken).mpr owns
        rw [needs] at settled
        contradiction
      have owes := accounted.unborn pass.index unowned (Or.inr ⟨pass, under, rfl, rfl⟩)
      rw [answers] at owes
      rw [fresh]
      exact owes
    | false =>
      have same : (world.typings pass.index).restart config pass = world.typings pass.index := by
        simp [Typing.restart, needs]
      have owes := accounted.owned pass.index ((ordered.taken pass taken).mp needs)
      rw [answers] at owes
      rw [same]
      exact owes
  rw [awaiting, held]
  refine ⟨?_, restarted.lines⟩
  have flight := restarted.flight
  have bit := Bool.toNat_le ((world.typings pass.index).restart config pass).awaitingResult
  cases result : pass.result with
  | none =>
    rw [result] at flight
    simpa using flight
  | some text =>
    rw [result] at flight
    simp only [Option.isSome_some, ↓reduceIte, Bool.not_true, Bool.and_false,
      Bool.toNat_false] at flight ⊢
    omega

private theorem owes_begin {world : Responder E} {pass : Pass} (ordered : Ordered world)
    (accounted : Accounted world pass.session) (taken : world.pump = .taken pass)
    (config : Config E) (accepted : Bool) :
    (world.pumpBegin config pass accepted).Owes pass.index pass.session 0
      ((world.pumpBegin config pass accepted).typings pass.index).awaitingResult
      (waiting ((world.pumpBegin config pass accepted).typings pass.index).pendingLine) := by
  have owes := owes_prepared ordered accounted taken config
  unfold pumpBegin
  dsimp only
  split
  · rename_i due
    rw [due.1, waiting, if_neg due.2] at owes
    refine owes_submit ?_ ?_ ?_ config _ accepted
    · exact owes
    · exact due.1
    · rfl
  · rw [settle_self]
    exact owes.settle pass _ _

/-- An empty line is not held. -/
theorem Owes.hold {world : Responder E} (owes : world.Owes i session coming awaiting [line]) :
    world.Owes i session coming awaiting (waiting line) := by
  unfold waiting
  split
  · rename_i void
    subst void
    exact ⟨owes.flight, owes.lines.vanishing []⟩
  · exact owes

private theorem owes_poll {world : Responder E} {pass : Pass} (ordered : Ordered world)
    (accounted : Accounted world pass.session) (held : Held world)
    (polling : world.pump = .polling pass out) (config : Config E) (accepted : Bool) :
    (world.pumpPoll config pass out accepted).Owes pass.index pass.session 0
      ((world.pumpPoll config pass out accepted).typings pass.index).awaitingResult
      (waiting ((world.pumpPoll config pass out accepted).typings pass.index).pendingLine) := by
  have owes := accounted.owned pass.index (ordered.polling pass out polling)
  rw [polling] at owes
  unfold pumpPoll
  dsimp only
  split
  · rename_i editor emitted line polled
    have typed := Owes.type owes line
    unfold takeLine
    dsimp only
    split
    · rename_i busy
      split
      · rename_i none
        rw [settle_self]
        rw [none, waiting, if_pos rfl] at typed
        exact (Owes.hold typed).settle pass _ _
      · rw [refuseLine_self]
        exact Owes.refuse typed config _ _
    · rename_i free
      have none : (world.typings pass.index).pendingLine = [] := by
        refine Classical.byContradiction fun some => ?_
        exact free (held pass.index some)
      have idle : (world.typings pass.index).awaitingResult = false := by simpa using free
      rw [none, waiting, if_pos rfl, idle] at typed
      refine owes_submit ?_ ?_ ?_ config _ accepted
      · exact typed
      · exact idle
      · exact none
  · rename_i editor emitted polled
    rw [pumpFinish_self]
    obtain ⟨_, awaiting, kept⟩ := finish_keeps config
      { world.typings pass.index with editor } pass (out ++ emitted)
    rw [awaiting, kept]
    exact ⟨owes.flight, owes.lines⟩

private theorem held_of_passed {pass : Pass} {before after : Responder E} (held : Held before)
    (passed : Passed before pass after)
    (own : (after.typings pass.index).pendingLine ≠ [] →
      (after.typings pass.index).awaitingResult = true) : Held after := by
  intro i some
  by_cases here : i = pass.index
  · subst here
    exact own some
  · rw [passed.others i here] at some ⊢
    exact held i some

theorem submit_pending {world : Responder E} {typing : Typing E} (none : typing.pendingLine = [])
    (config : Config E) (pass : Pass) (out line : Text) (accepted : Bool) :
    ((submitLine config world pass out typing line accepted).typings pass.index).pendingLine =
      [] := by
  cases accepted with
  | true =>
    have self := acceptLine_self world pass out typing line
    simpa [submitLine, self] using none
  | false =>
    have self := refuseLine_self config world pass out typing line
    simpa [submitLine, self] using none

private theorem held_begin {world : Responder E} {pass : Pass} (held : Held world)
    (ordered : Ordered world) (taken : world.pump = .taken pass) (config : Config E)
    (accepted : Bool) : Held (world.pumpBegin config pass accepted) := by
  apply held_of_passed held (passed_begin ordered taken config accepted)
  unfold pumpBegin
  dsimp only
  split
  · rw [submit_pending rfl config]
    exact fun some => absurd rfl some
  · rename_i due
    rw [settle_self]
    intro some
    refine Classical.byContradiction fun free => due ⟨?_, some⟩
    simpa using free

private theorem held_poll {world : Responder E} {pass : Pass} (held : Held world)
    (ordered : Ordered world) (polling : world.pump = .polling pass out) (config : Config E)
    (accepted : Bool) : Held (world.pumpPoll config pass out accepted) := by
  apply held_of_passed held (passed_poll ordered polling config accepted)
  unfold pumpPoll
  dsimp only
  split
  · rename_i editor emitted line polled
    unfold takeLine
    dsimp only
    split
    · rename_i busy
      split
      · rw [settle_self]
        exact fun _ => busy
      · rw [refuseLine_self]
        exact fun _ => busy
    · rename_i free
      intro some
      refine absurd (submit_pending ?_ config pass _ line accepted) some
      refine Classical.byContradiction fun some => ?_
      exact free (held pass.index some)
  · rename_i editor emitted polled
    rw [pumpFinish_self]
    obtain ⟨_, awaiting, kept⟩ := finish_keeps config
      { world.typings pass.index with editor } pass (out ++ emitted)
    rw [awaiting, kept]
    exact held pass.index

theorem held_step {config : Config E} {world next : Responder E} (held : Held world)
    (ordered : Ordered world) (stepped : step config world event = some next) : Held next := by
  cases moved_of_step stepped with
  | quiet quiet =>
    unfold Held
    rw [quiet.typings]
    exact held
  | given _ _ allocated =>
    unfold Held
    rw [allocated.typings]
    exact held
  | unbound target locked => exact held
  | @answered command rest queued text status =>
    unfold Held
    rw [(deliver_kept { world with queue := rest } command.origin text status).2.1]
    exact held
  | took idle used now => exact held
  | began taken accepted => exact held_begin held ordered taken config accepted
  | polled polling accepted => exact held_poll held ordered polling config accepted

/-- The oldest command's result does not end up with the session when it is another's. -/
def ReachesOwn (session : Nat) (world : Responder E) : Event → Prop
  | .commandResult _ _ => ∀ command ∈ world.queue.head?,
      ∀ i, world.find command.origin = some i → (world.slots i).session = session →
        command.session = session
  | _ => True

theorem accounted_step {config : Config E} {world next : Responder E} (ordered : Ordered world)
    (held : Held world) (accounted : Accounted world session)
    (own : ReachesOwn session world event) (stepped : step config world event = some next) :
    Accounted next session := by
  cases moved_of_step stepped with
  | quiet quiet => exact accounted_of_eased accounted (eased_quiet quiet session)
  | given _ missing allocated => exact accounted_of_allocated ordered accounted missing allocated
  | unbound target locked =>
    exact accounted_of_eased accounted (eased_unbind world target locked session)
  | @answered command rest queued text status =>
    have mine := own command (by simp [queued])
    exact accounted_of_eased accounted (eased_result queued mine text status)
  | took idle used now =>
    exact accounted_of_eased accounted (eased_take ordered idle used now session)
  | began taken accepted =>
    refine accounted_of_passed ordered accounted (by rw [taken]; rfl)
      (passed_begin ordered taken config accepted) ?_
    rintro rfl
    exact owes_begin ordered accounted taken config accepted
  | polled polling accepted =>
    refine accounted_of_passed ordered accounted (by rw [polling]; rfl)
      (passed_poll ordered polling config accepted) ?_
    rintro rfl
    exact owes_poll ordered accounted held polling config accepted

theorem held_start (editor : E) : Held (start editor) :=
  fun _ some => absurd rfl some

theorem accounted_start (editor : E) (session : Nat) : Accounted (start editor) session :=
  accounted_absent (ordered_start editor) (Nat.zero_le _)

end Responder
end BallyOS.Terminal
