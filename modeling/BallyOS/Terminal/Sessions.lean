import BallyOS.Terminal.Responder

/-! Which session everything belongs to. A slot is given out as a new session, the
pass works for the session it found, and what only `pump` touches is the session's
once a pass has reset it. -/
namespace BallyOS.Terminal
open Library

variable {E : Type}

def Pump.pass : Pump → Option Pass
  | idle => none
  | taken pass | polling pass _ => some pass

namespace Responder

/-- Every line that was ever noted. -/
def noted (world : Responder E) : List Command :=
  world.queue ++ world.typed ++ world.submitted ++ world.dropped

theorem find_some {world : Responder E} (found : world.find origin = some i) :
    (world.slots i).used = true ∧ (world.slots i).origin = origin := by
  simpa using List.find?_some found

theorem find_none {world : Responder E} (missing : world.find origin = none) (i : Fin 3)
    (used : (world.slots i).used = true) : (world.slots i).origin ≠ origin := by
  have member : ∀ i : Fin 3, i ∈ ([0, 1, 2] : List (Fin 3)) := by decide
  have apart := List.find?_eq_none.mp missing i (member i)
  simpa [used] using apart

structure Ordered (world : Responder E) : Prop where
  apart : ∀ i j, (world.slots i).used = true → (world.slots j).used = true →
    (world.slots i).origin = (world.slots j).origin → i = j
  slot : ∀ i, (world.slots i).used = true →
    world.sessions[(world.slots i).session]? = some ((world.slots i).origin, i)
  pass : ∀ pass, world.pump.pass = some pass →
    world.sessions[pass.session]? = some (pass.origin, pass.index)
  owner : ∀ i session, (world.typings i).owner = some session →
    ∃ origin, world.sessions[session]? = some (origin, i)
  noted : ∀ command ∈ world.noted, ∃ i,
    world.sessions[command.session]? = some (command.origin, i)
  /-- A pass finds its slot still that of its session, or given out anew. -/
  current : ∀ pass, world.pump.pass = some pass → (world.slots pass.index).used = true →
    ((world.slots pass.index).needsEditorReset = false ↔
      (world.slots pass.index).session = pass.session)
  ready : ∀ i, (world.slots i).used = true → (world.slots i).needsEditorReset = false →
    (world.typings i).owner = some (world.slots i).session ∨
      ∃ pass, world.pump = .taken pass ∧ pass.index = i
  fresh : ∀ i, (world.slots i).used = true → (world.slots i).needsEditorReset = true →
    (world.typings i).owner ≠ some (world.slots i).session
  taken : ∀ pass, world.pump = .taken pass →
    (pass.needsReset = false ↔ (world.typings pass.index).owner = some pass.session)
  polling : ∀ pass out, world.pump = .polling pass out →
    (world.typings pass.index).owner = some pass.session

theorem Ordered.find_of_used {world : Responder E} (ordered : Ordered world)
    (used : (world.slots i).used = true) : world.find (world.slots i).origin = some i := by
  cases found : world.find (world.slots i).origin with
  | none => exact absurd rfl (find_none found i used)
  | some j =>
    obtain ⟨taken, same⟩ := find_some found
    rw [ordered.apart j i taken used same]

/-- Sessions are known for good. -/
theorem known_append {sessions more : List (Origin × Fin 3)} {session : Nat}
    (known : sessions[session]? = some entry) : (sessions ++ more)[session]? = some entry := by
  obtain ⟨within, _⟩ := List.getElem?_eq_some_iff.mp known
  rw [List.getElem?_append_left within, known]

theorem lt_of_known {sessions : List (Origin × Fin 3)} {session : Nat}
    (known : sessions[session]? = some entry) : session < sessions.length :=
  (List.getElem?_eq_some_iff.mp known).1

/-- Slots that are at most freed, with everything else as it was. -/
structure Calmer (before after : Responder E) : Prop where
  slots : ∀ i, (after.slots i).used = true → (before.slots i).used = true ∧
    (after.slots i).origin = (before.slots i).origin ∧
    (after.slots i).session = (before.slots i).session ∧
    (after.slots i).needsEditorReset = (before.slots i).needsEditorReset
  typings : after.typings = before.typings
  pump : after.pump = before.pump
  sessions : after.sessions = before.sessions
  noted : ∀ command ∈ after.noted, command ∈ before.noted

private theorem ordered_of_calmer {before after : Responder E} (ordered : Ordered before)
    (calmer : Calmer before after) : Ordered after where
  apart i j first second same := by
    obtain ⟨usedFirst, originFirst, _⟩ := calmer.slots i first
    obtain ⟨usedSecond, originSecond, _⟩ := calmer.slots j second
    rw [originFirst, originSecond] at same
    exact ordered.apart i j usedFirst usedSecond same
  slot i used := by
    obtain ⟨before, origin, session, _⟩ := calmer.slots i used
    rw [calmer.sessions, origin, session]
    exact ordered.slot i before
  pass pass under := by
    rw [calmer.pump] at under
    rw [calmer.sessions]
    exact ordered.pass pass under
  owner i session owns := by
    rw [calmer.typings] at owns
    rw [calmer.sessions]
    exact ordered.owner i session owns
  noted command member := by
    rw [calmer.sessions]
    exact ordered.noted command (calmer.noted command member)
  current pass under used := by
    obtain ⟨before, _, session, needs⟩ := calmer.slots pass.index used
    rw [calmer.pump] at under
    rw [session, needs]
    exact ordered.current pass under before
  ready i used settled := by
    obtain ⟨before, _, session, needs⟩ := calmer.slots i used
    rw [needs] at settled
    rw [calmer.typings, calmer.pump, session]
    exact ordered.ready i before settled
  fresh i used unsettled := by
    obtain ⟨before, _, session, needs⟩ := calmer.slots i used
    rw [needs] at unsettled
    rw [calmer.typings, session]
    exact ordered.fresh i before unsettled
  taken pass under := by
    rw [calmer.pump] at under
    rw [calmer.typings]
    exact ordered.taken pass under
  polling pass out under := by
    rw [calmer.pump] at under
    rw [calmer.typings]
    exact ordered.polling pass out under

theorem setSlot_self (world : Responder E) (i : Fin 3) (slot : Slot) :
    (world.setSlot i slot).slots i = slot := by
  simp [setSlot]

theorem setSlot_other (world : Responder E) (slot : Slot) (other : j ≠ i) :
    (world.setSlot i slot).slots j = world.slots j := by
  simp [setSlot, other]

/-- A slot that keeps its origin and session. -/
theorem calmer_setSlot {world : Responder E} {slot : Slot}
    (used : slot.used = (world.slots i).used) (origin : slot.origin = (world.slots i).origin)
    (session : slot.session = (world.slots i).session)
    (needs : slot.needsEditorReset = (world.slots i).needsEditorReset) :
    Calmer world (world.setSlot i slot) := by
  refine ⟨fun j now => ?_, rfl, rfl, rfl, fun _ => id⟩
  by_cases same : j = i
  · subst same
    rw [setSlot_self] at now ⊢
    exact ⟨used ▸ now, origin, session, needs⟩
  · rw [setSlot_other _ _ same] at now ⊢
    exact ⟨now, rfl, rfl, rfl⟩

theorem calmer_unbind (world : Responder E) (target : LinkTarget) (locked : Bool) :
    Calmer world (world.unbindTarget target locked) := by
  refine ⟨fun i used => ?_, rfl, rfl, rfl, fun _ => id⟩
  simp only [unbindTarget] at used ⊢
  split at used
  · contradiction
  · rename_i kept
    rw [if_neg kept]
    exact ⟨used, rfl, rfl, rfl⟩

theorem calmer_deliver (world : Responder E) (origin : Origin) (text : Text) (status : UInt8) :
    Calmer world (world.deliverCommandOutput origin text status) := by
  unfold deliverCommandOutput
  split
  · exact calmer_setSlot rfl rfl rfl rfl
  · exact ⟨fun _ used => ⟨used, rfl, rfl, rfl⟩, rfl, rfl, rfl, fun _ => id⟩

/-- Bytes and output are buffered, and nothing else moves. -/
structure Quiet (before after : Responder E) : Prop where
  slots : ∀ i, (after.slots i).used = (before.slots i).used ∧
    (after.slots i).origin = (before.slots i).origin ∧
    (after.slots i).session = (before.slots i).session ∧
    (after.slots i).needsEditorReset = (before.slots i).needsEditorReset ∧
    (after.slots i).resultReady = (before.slots i).resultReady
  typings : after.typings = before.typings
  pump : after.pump = before.pump
  sessions : after.sessions = before.sessions
  queue : after.queue = before.queue
  typed : after.typed = before.typed
  submitted : after.submitted = before.submitted
  dropped : after.dropped = before.dropped
  busy : after.linesDroppedBusy = before.linesDroppedBusy

private theorem Quiet.calmer {before after : Responder E} (quiet : Quiet before after) :
    Calmer before after := by
  refine ⟨fun i used => ?_, quiet.typings, quiet.pump, quiet.sessions, fun command member => ?_⟩
  · obtain ⟨use, origin, session, needs, _⟩ := quiet.slots i
    exact ⟨use ▸ used, origin, session, needs⟩
  · unfold Responder.noted at member ⊢
    rwa [quiet.queue, quiet.typed, quiet.submitted, quiet.dropped] at member

private theorem quiet_of_slots {before after : Responder E} (slots : after.slots = before.slots)
    (typings : after.typings = before.typings) (pump : after.pump = before.pump)
    (sessions : after.sessions = before.sessions) (queue : after.queue = before.queue)
    (typed : after.typed = before.typed) (submitted : after.submitted = before.submitted)
    (dropped : after.dropped = before.dropped)
    (busy : after.linesDroppedBusy = before.linesDroppedBusy) : Quiet before after :=
  ⟨fun i => by rw [slots]; exact ⟨rfl, rfl, rfl, rfl, rfl⟩, typings, pump, sessions, queue, typed,
    submitted, dropped, busy⟩

private theorem quiet_setSlot {world : Responder E} {slot : Slot}
    (used : slot.used = (world.slots i).used) (origin : slot.origin = (world.slots i).origin)
    (session : slot.session = (world.slots i).session)
    (needs : slot.needsEditorReset = (world.slots i).needsEditorReset)
    (result : slot.resultReady = (world.slots i).resultReady) :
    Quiet world (world.setSlot i slot) := by
  refine ⟨fun j => ?_, rfl, rfl, rfl, rfl, rfl, rfl, rfl, rfl⟩
  by_cases same : j = i
  · subst same
    rw [setSlot_self]
    exact ⟨used, origin, session, needs, result⟩
  · rw [setSlot_other _ _ same]
    exact ⟨rfl, rfl, rfl, rfl, rfl⟩

private theorem quiet_bind (world : Responder E) (target : LinkTarget) :
    Quiet world (world.bindTarget target) :=
  quiet_of_slots rfl rfl rfl rfl rfl rfl rfl rfl rfl

private theorem quiet_async (world : Responder E) (origin : Origin) (text : Text) (locked : Bool) :
    Quiet world (world.pushAsyncOutput origin text locked) := by
  unfold pushAsyncOutput
  dsimp only
  split
  · exact quiet_of_slots rfl rfl rfl rfl rfl rfl rfl rfl rfl
  · split
    · exact quiet_of_slots rfl rfl rfl rfl rfl rfl rfl rfl rfl
    · split
      · exact quiet_of_slots rfl rfl rfl rfl rfl rfl rfl rfl rfl
      · split
        · exact quiet_setSlot rfl rfl rfl rfl rfl
        · exact quiet_of_slots rfl rfl rfl rfl rfl rfl rfl rfl rfl

/-- A slot given out anew, as a session that nothing belongs to yet. -/
structure Allocated (before : Responder E) (sender : Origin) (i : Fin 3) (after : Responder E) :
    Prop where
  used : (after.slots i).used = true
  origin : (after.slots i).origin = sender
  session : (after.slots i).session = before.sessions.length
  needs : (after.slots i).needsEditorReset = true
  result : (after.slots i).resultReady = false
  others : ∀ j, j ≠ i → after.slots j = before.slots j
  typings : after.typings = before.typings
  pump : after.pump = before.pump
  sessions : after.sessions = before.sessions ++ [(sender, i)]
  queue : after.queue = before.queue
  typed : after.typed = before.typed
  submitted : after.submitted = before.submitted
  dropped : after.dropped = before.dropped
  busy : after.linesDroppedBusy = before.linesDroppedBusy

theorem findOrAlloc_found {world : Responder E} (found : world.find origin = some i) :
    world.findOrAlloc origin now = (i, world) := by
  unfold findOrAlloc
  rw [found]

theorem findOrAlloc_new {world : Responder E} (missing : world.find origin = none)
    (now : UInt64) :
    (world.findOrAlloc origin now).1 = world.victim ∧
      Allocated world origin world.victim (world.findOrAlloc origin now).2 := by
  unfold findOrAlloc
  rw [missing]
  refine ⟨rfl, ?_⟩
  constructor
  case others => exact fun j other => setSlot_other world _ other
  all_goals simp [setSlot]

/-- What the received bytes add to it. -/
theorem Allocated.fill {before found : Responder E} (allocated : Allocated before sender i found)
    (target : LinkTarget) (input : Text) (inBytesDropped : UInt32) :
    Allocated before sender i { found.setSlot i { found.slots i with
      target
      input } with inBytesDropped } := by
  constructor
  case others =>
    intro j other
    exact (setSlot_other found _ other).trans (allocated.others j other)
  case typings => exact allocated.typings
  case pump => exact allocated.pump
  case sessions => exact allocated.sessions
  case queue => exact allocated.queue
  case typed => exact allocated.typed
  case submitted => exact allocated.submitted
  case dropped => exact allocated.dropped
  case busy => exact allocated.busy
  all_goals
    dsimp only
    rw [setSlot_self]
  case used => exact allocated.used
  case origin => exact allocated.origin
  case session => exact allocated.session
  case needs => exact allocated.needs
  case result => exact allocated.result

/-- Only the slot that was given out has the new session. -/
theorem Allocated.session_iff {before after : Responder E}
    (allocated : Allocated before sender i after) (ordered : Ordered before)
    (used : (after.slots j).used = true) :
    (after.slots j).session = before.sessions.length ↔ j = i := by
  constructor
  · intro new
    refine Classical.byContradiction fun other => ?_
    rw [allocated.others j other] at new used
    have known := lt_of_known (ordered.slot j used)
    omega
  · rintro rfl
    exact allocated.session

theorem ordered_of_allocated {before after : Responder E} (ordered : Ordered before)
    (missing : before.find sender = none) (allocated : Allocated before sender i after) :
    Ordered after := by
  have new : ∀ {entry}, before.sessions[before.sessions.length]? ≠ some entry := by simp
  have unowned : ∀ j, (before.typings j).owner ≠ some before.sessions.length := by
    intro j owns
    obtain ⟨origin, known⟩ := ordered.owner j _ owns
    exact new known
  have stays : ∀ {session : Nat} {entry}, before.sessions[session]? = some entry →
      after.sessions[session]? = some entry := by
    intro session entry known
    rw [allocated.sessions]
    exact known_append known
  constructor
  case apart =>
    have alone : ∀ j, j ≠ i → (after.slots j).used = true →
        (after.slots j).origin ≠ (after.slots i).origin := by
      intro j other used
      rw [allocated.others j other] at used ⊢
      rw [allocated.origin]
      exact find_none missing j used
    intro j k usedJ usedK same
    by_cases first : j = i
    · subst first
      refine Classical.byContradiction fun other => ?_
      exact alone k (Ne.symm other) usedK same.symm
    · by_cases second : k = i
      · subst second
        exact absurd same (alone j first usedJ)
      · rw [allocated.others j first] at usedJ same
        rw [allocated.others k second] at usedK same
        exact ordered.apart j k usedJ usedK same
  case slot =>
    intro j used
    by_cases here : j = i
    · subst here
      rw [allocated.session, allocated.origin, allocated.sessions]
      simp
    · rw [allocated.others j here] at used ⊢
      exact stays (ordered.slot j used)
  case pass =>
    intro pass under
    rw [allocated.pump] at under
    exact stays (ordered.pass pass under)
  case owner =>
    intro j session owns
    rw [allocated.typings] at owns
    obtain ⟨origin, known⟩ := ordered.owner j session owns
    exact ⟨origin, stays known⟩
  case noted =>
    intro command member
    unfold Responder.noted at member
    rw [allocated.queue, allocated.typed, allocated.submitted, allocated.dropped] at member
    obtain ⟨j, known⟩ := ordered.noted command member
    exact ⟨j, stays known⟩
  case current =>
    intro pass under used
    rw [allocated.pump] at under
    by_cases here : pass.index = i
    · rw [here, allocated.needs, allocated.session]
      have known := lt_of_known (ordered.pass pass under)
      simp only [Bool.true_eq_false, false_iff]
      omega
    · rw [allocated.others _ here] at used ⊢
      exact ordered.current pass under used
  case ready =>
    intro j used settled
    rw [allocated.typings, allocated.pump]
    by_cases here : j = i
    · rw [here, allocated.needs] at settled
      contradiction
    · rw [allocated.others j here] at used settled ⊢
      exact ordered.ready j used settled
  case fresh =>
    intro j used unsettled
    rw [allocated.typings]
    by_cases here : j = i
    · rw [here, allocated.session]
      exact unowned i
    · rw [allocated.others j here] at used unsettled ⊢
      exact ordered.fresh j used unsettled
  case taken =>
    intro pass under
    rw [allocated.pump] at under
    rw [allocated.typings]
    exact ordered.taken pass under
  case polling =>
    intro pass out under
    rw [allocated.pump] at under
    rw [allocated.typings]
    exact ordered.polling pass out under

theorem onTerminalIn_new {world : Responder E} (missing : world.find origin = none)
    (bytes : plaintext ≠ []) (target : LinkTarget) (timestamp : UInt64) :
    Allocated world origin world.victim
      (world.onTerminalIn target origin timestamp plaintext true) := by
  obtain ⟨index, allocated⟩ := findOrAlloc_new missing timestamp
  unfold onTerminalIn
  rw [if_neg bytes, if_neg (by decide)]
  dsimp only
  rw [← index] at allocated ⊢
  exact allocated.fill target _ _

/-- Received bytes only fill the slot that was found or given out. -/
theorem onTerminalIn_cases (world : Responder E) (target : LinkTarget) (origin : Origin)
    (timestamp : UInt64) (plaintext : Text) (locked : Bool) :
    Quiet world (world.onTerminalIn target origin timestamp plaintext locked) ∨
    plaintext ≠ [] ∧ locked = true ∧ world.find origin = none := by
  unfold onTerminalIn
  split
  · exact Or.inl (quiet_of_slots rfl rfl rfl rfl rfl rfl rfl rfl rfl)
  · rename_i bytes
    split
    · exact Or.inl (quiet_of_slots rfl rfl rfl rfl rfl rfl rfl rfl rfl)
    · rename_i lock
      cases found : world.find origin with
      | some i =>
        rw [findOrAlloc_found found]
        have quiet : Quiet world (world.setSlot i { world.slots i with
            target
            input := (world.slots i).input ++
              plaintext.take (kMaxPendingIn - (world.slots i).input.length) }) :=
          quiet_setSlot rfl rfl rfl rfl rfl
        exact Or.inl ⟨quiet.slots, rfl, rfl, rfl, rfl, rfl, rfl, rfl, rfl⟩
      | none => exact Or.inr ⟨bytes, by simpa using lock, rfl⟩

theorem pumpTake_self (world : Responder E) (i : Fin 3) (now : UInt64) :
    (world.pumpTake i now).slots i = { world.slots i with
      lastUsed := now
      needsEditorReset := false
      pendingOut := if (world.slots i).resultReady then [] else (world.slots i).pendingOut
      resultReady := false
      input := []
      asyncOut := [] } :=
  setSlot_self world i _

theorem pumpTake_other (world : Responder E) (now : UInt64) (other : j ≠ i) :
    (world.pumpTake i now).slots j = world.slots j :=
  setSlot_other world _ other

theorem pumpTake_kept (world : Responder E) (i j : Fin 3) (now : UInt64) :
    ((world.pumpTake i now).slots j).used = (world.slots j).used ∧
      ((world.pumpTake i now).slots j).origin = (world.slots j).origin ∧
      ((world.pumpTake i now).slots j).session = (world.slots j).session := by
  by_cases here : j = i
  · subst here
    rw [pumpTake_self]
    exact ⟨rfl, rfl, rfl⟩
  · rw [pumpTake_other world now here]
    exact ⟨rfl, rfl, rfl⟩

/-- A pass takes what the lock guards of a slot in use. -/
theorem ordered_take {world : Responder E} (ordered : Ordered world) (idle : world.pump = .idle)
    (used : (world.slots i).used = true) (now : UInt64) : Ordered (world.pumpTake i now) := by
  have under : ∀ pass, (world.pumpTake i now).pump.pass = some pass →
      pass = passOf (world.slots i) i now := fun pass same => (Option.some.inj same).symm
  constructor
  case apart =>
    intro j k usedJ usedK same
    obtain ⟨useJ, originJ, _⟩ := pumpTake_kept world i j now
    obtain ⟨useK, originK, _⟩ := pumpTake_kept world i k now
    exact ordered.apart j k (useJ ▸ usedJ) (useK ▸ usedK) (originJ ▸ originK ▸ same)
  case slot =>
    intro j usedJ
    obtain ⟨use, origin, session⟩ := pumpTake_kept world i j now
    rw [origin, session]
    exact ordered.slot j (use ▸ usedJ)
  case pass =>
    intro pass same
    rw [under pass same]
    exact ordered.slot i used
  case owner => exact ordered.owner
  case noted => exact ordered.noted
  case current =>
    intro pass same _
    rw [under pass same]
    obtain ⟨_, _, session⟩ := pumpTake_kept world i i now
    refine iff_of_true ?_ session
    exact congrArg Slot.needsEditorReset (pumpTake_self world i now)
  case ready =>
    intro j usedJ settled
    by_cases here : j = i
    · exact Or.inr ⟨_, rfl, here.symm⟩
    · rw [pumpTake_other world now here] at usedJ settled ⊢
      rcases ordered.ready j usedJ settled with owns | ⟨pass, taken, _⟩
      · exact Or.inl owns
      · rw [idle] at taken
        contradiction
  case fresh =>
    intro j usedJ unsettled
    by_cases here : j = i
    · subst here
      rw [pumpTake_self] at unsettled
      contradiction
    · rw [pumpTake_other world now here] at usedJ unsettled ⊢
      exact ordered.fresh j usedJ unsettled
  case taken =>
    intro pass taken
    cases taken
    constructor
    · intro settled
      rcases ordered.ready i used settled with owns | ⟨pass, taken, _⟩
      · exact owns
      · rw [idle] at taken
        contradiction
    · intro owns
      cases needs : (world.slots i).needsEditorReset with
      | false => exact needs
      | true => exact absurd owns (ordered.fresh i used needs)
  case polling =>
    intro pass out polling
    contradiction

/-- Lines of the pass's own session are appended, and nothing else. -/
def Grows (pass : Pass) (before after : List Command) : Prop :=
  ∃ lines : List Text, after = before ++ lines.map (Command.mk pass.origin pass.session)

private theorem grows_refl (pass : Pass) (commands : List Command) : Grows pass commands commands :=
  ⟨[], by simp⟩

private theorem grows_one (pass : Pass) (commands : List Command) (line : Text) :
    Grows pass commands (commands ++ [⟨pass.origin, pass.session, line⟩]) :=
  ⟨[line], by simp⟩

private theorem Grows.trans {pass : Pass} (first : Grows pass before middle)
    (second : Grows pass middle after) :
    Grows pass before after := by
  obtain ⟨lines, rfl⟩ := first
  obtain ⟨more, rfl⟩ := second
  exact ⟨lines ++ more, by simp⟩

private theorem Grows.mem {pass : Pass} (grows : Grows pass before after) (member : command ∈ after)
    :
    command ∈ before ∨ command.origin = pass.origin ∧ command.session = pass.session := by
  obtain ⟨lines, rfl⟩ := grows
  rcases List.mem_append.mp member with old | new
  · exact Or.inl old
  · obtain ⟨line, _, rfl⟩ := List.mem_map.mp new
    exact Or.inr ⟨rfl, rfl⟩

/-- What a pass leaves alone, and what it may note: only lines of its own session. -/
structure Passed (before : Responder E) (pass : Pass) (after : Responder E) : Prop where
  slots : after.slots = before.slots
  sessions : after.sessions = before.sessions
  others : ∀ i, i ≠ pass.index → after.typings i = before.typings i
  owner : (after.typings pass.index).owner = some pass.session
  pump : after.pump = .idle ∨ ∃ out, after.pump = .polling pass out
  queue : Grows pass before.queue after.queue
  typed : Grows pass before.typed after.typed
  submitted : Grows pass before.submitted after.submitted
  dropped : Grows pass before.dropped after.dropped

private theorem Passed.noted {pass : Pass} {before after : Responder E}
    (passed : Passed before pass after)
    (member : command ∈ after.noted) :
    command ∈ before.noted ∨ command.origin = pass.origin ∧ command.session = pass.session := by
  simp only [Responder.noted, List.mem_append] at member ⊢
  rcases member with ((queued | typed) | submitted) | dropped
  · exact (passed.queue.mem queued).imp_left fun old => Or.inl (Or.inl (Or.inl old))
  · exact (passed.typed.mem typed).imp_left fun old => Or.inl (Or.inl (Or.inr old))
  · exact (passed.submitted.mem submitted).imp_left fun old => Or.inl (Or.inr old)
  · exact (passed.dropped.mem dropped).imp_left Or.inr

theorem ordered_of_passed {pass : Pass} {before after : Responder E} (ordered : Ordered before)
    (under : before.pump.pass = some pass) (passed : Passed before pass after) :
    Ordered after := by
  have still : ∀ other, after.pump.pass = some other → other = pass := by
    intro other same
    rcases passed.pump with idle | ⟨out, polling⟩
    · rw [idle] at same
      contradiction
    · rw [polling] at same
      exact (Option.some.inj same).symm
  have untaken : ∀ other, after.pump ≠ .taken other := by
    intro other taken
    rcases passed.pump with idle | ⟨out, polling⟩
    · rw [idle] at taken
      contradiction
    · rw [polling] at taken
      contradiction
  constructor
  case apart =>
    rw [passed.slots]
    exact ordered.apart
  case slot =>
    rw [passed.slots, passed.sessions]
    exact ordered.slot
  case pass =>
    intro other same
    rw [still other same, passed.sessions]
    exact ordered.pass pass under
  case owner =>
    intro i session owns
    rw [passed.sessions]
    by_cases here : i = pass.index
    · subst here
      rw [passed.owner] at owns
      cases owns
      exact ⟨pass.origin, ordered.pass pass under⟩
    · rw [passed.others i here] at owns
      exact ordered.owner i session owns
  case noted =>
    intro command member
    rw [passed.sessions]
    rcases passed.noted member with old | ⟨origin, session⟩
    · exact ordered.noted command old
    · rw [origin, session]
      exact ⟨pass.index, ordered.pass pass under⟩
  case current =>
    intro other same
    rw [still other same, passed.slots]
    exact ordered.current pass under
  case ready =>
    intro i used settled
    rw [passed.slots] at used settled ⊢
    apply Or.inl
    by_cases here : i = pass.index
    · subst here
      rw [passed.owner, (ordered.current pass under used).mp settled]
    · rw [passed.others i here]
      rcases ordered.ready i used settled with owns | ⟨other, taken, index⟩
      · exact owns
      · rw [taken] at under
        cases under
        exact absurd index.symm here
  case fresh =>
    intro i used unsettled
    rw [passed.slots] at used unsettled ⊢
    by_cases here : i = pass.index
    · subst here
      rw [passed.owner]
      intro same
      have settled := (ordered.current pass under used).mpr (Option.some.inj same).symm
      rw [settled] at unsettled
      contradiction
    · rw [passed.others i here]
      exact ordered.fresh i used unsettled
  case taken =>
    intro other taken
    exact absurd taken (untaken other)
  case polling =>
    intro other out polling
    have same : other = pass := still other (by rw [polling]; rfl)
    rw [same, passed.owner]

theorem settle_self (world : Responder E) (pass : Pass) (out : Text) (typing : Typing E) :
    (world.settle pass out typing).typings pass.index = typing := by
  simp [settle]

private theorem settle_other (world : Responder E) (pass : Pass) (out : Text) (typing : Typing E)
    (other : i ≠ pass.index) : (world.settle pass out typing).typings i = world.typings i := by
  simp [settle, other]

theorem acceptLine_self (world : Responder E) (pass : Pass) (out : Text) (typing : Typing E)
    (line : Text) : (world.acceptLine pass out typing line).typings pass.index =
      { typing with awaitingResult := true } := by
  simp [acceptLine, settle]

theorem refuseLine_self (config : Config E) (world : Responder E) (pass : Pass) (out : Text)
    (typing : Typing E) (line : Text) :
    (refuseLine config world pass out typing line).typings pass.index =
      { typing with editor := (config.editor.writeResponse busyNotice typing.editor).1 } := by
  simp [refuseLine, settle, Typing.emit]

private theorem passed_settle {pass : Pass} {world : Responder E} {typing : Typing E}
    (owner : typing.owner = some pass.session) :
    Passed world pass (world.settle pass out typing) where
  slots := rfl
  sessions := rfl
  others _ other := settle_other world pass out typing other
  owner := by rw [settle_self, owner]
  pump := Or.inr ⟨out, rfl⟩
  queue := grows_refl pass _
  typed := grows_refl pass _
  submitted := grows_refl pass _
  dropped := grows_refl pass _

private theorem passed_accept {pass : Pass} {world : Responder E} {typing : Typing E}
    (owner : typing.owner = some pass.session) :
    Passed world pass (world.acceptLine pass out typing line) where
  slots := rfl
  sessions := rfl
  others _ other := settle_other world pass out _ other
  owner := by rw [acceptLine_self, owner]
  pump := Or.inr ⟨out, rfl⟩
  queue := grows_one pass _ line
  typed := grows_refl pass _
  submitted := grows_one pass _ line
  dropped := grows_refl pass _

private theorem passed_refuse {pass : Pass} {config : Config E} {world : Responder E}
    {typing : Typing E}
    (owner : typing.owner = some pass.session) :
    Passed world pass (refuseLine config world pass out typing line) where
  slots := rfl
  sessions := rfl
  others i other := by simp [refuseLine, settle, other]
  owner := by rw [refuseLine_self, owner]
  pump := Or.inr ⟨_, rfl⟩
  queue := grows_refl pass _
  typed := grows_refl pass _
  submitted := grows_refl pass _
  dropped := grows_one pass _ line

private theorem passed_submit {pass : Pass} {config : Config E} {world : Responder E}
    {typing : Typing E}
    (owner : typing.owner = some pass.session) (accepted : Bool) :
    Passed world pass (submitLine config world pass out typing line accepted) := by
  cases accepted with
  | true => exact passed_accept owner
  | false => exact passed_refuse owner

theorem finish_keeps (config : Config E) (typing : Typing E) (pass : Pass) (out : Text) :
    (typing.finish config pass out).1.owner = typing.owner ∧
      (typing.finish config pass out).1.awaitingResult = typing.awaitingResult ∧
      (typing.finish config pass out).1.pendingLine = typing.pendingLine := by
  unfold Typing.finish
  split
  · exact ⟨rfl, rfl, rfl⟩
  · split <;> exact ⟨rfl, rfl, rfl⟩

theorem pumpFinish_self (config : Config E) (world : Responder E) (pass : Pass) (out : Text)
    (typing : Typing E) : (pumpFinish config world pass out typing).typings pass.index =
      (typing.finish config pass out).1 := by
  simp [pumpFinish, settle]

private theorem passed_finish {pass : Pass} {config : Config E} {world : Responder E}
    {typing : Typing E}
    (owner : typing.owner = some pass.session) :
    Passed world pass (pumpFinish config world pass out typing) where
  slots := rfl
  sessions := rfl
  others i other := by simp [pumpFinish, settle, other]
  owner := by rw [pumpFinish_self, (finish_keeps config typing pass _).1, owner]
  pump := Or.inl rfl
  queue := grows_refl pass _
  typed := grows_refl pass _
  submitted := grows_refl pass _
  dropped := grows_refl pass _

private theorem paint_keeps (config : Config E) (typing : Typing E) :
    (typing.paint config).1.owner = typing.owner ∧
      (typing.paint config).1.awaitingResult = typing.awaitingResult ∧
      (typing.paint config).1.pendingLine = typing.pendingLine := by
  unfold Typing.paint
  split <;> exact ⟨rfl, rfl, rfl⟩

private theorem answer_keeps (config : Config E) (typing : Typing E) (result : Option Text)
    (out : Text) :
    (typing.answer config result out).1.owner = typing.owner ∧
      (typing.answer config result out).1.awaitingResult =
        (typing.awaitingResult && !result.isSome) ∧
      (typing.answer config result out).1.pendingLine = typing.pendingLine := by
  cases result with
  | none => exact ⟨rfl, by simp [Typing.answer], rfl⟩
  | some text => exact ⟨rfl, by simp [Typing.answer, Typing.emit], rfl⟩

private theorem hear_keeps (config : Config E) (typing : Typing E) (input : Text) :
    (typing.hear config input).owner = typing.owner ∧
      (typing.hear config input).awaitingResult = typing.awaitingResult ∧
      (typing.hear config input).pendingLine = typing.pendingLine := by
  unfold Typing.hear
  split <;> exact ⟨rfl, rfl, rfl⟩

/-- What a pass makes of the typing before it submits: a reset makes it the
session's own, and a result ends the wait. -/
theorem prepare_spec (config : Config E) (typing : Typing E) (pass : Pass) :
    (typing.prepare config pass).1.owner = (typing.restart config pass).owner ∧
      (typing.prepare config pass).1.awaitingResult =
        ((typing.restart config pass).awaitingResult && !pass.result.isSome) ∧
      (typing.prepare config pass).1.pendingLine = (typing.restart config pass).pendingLine := by
  obtain ⟨painted, waiting, held⟩ := paint_keeps config (typing.restart config pass)
  obtain ⟨answered, waited, kept⟩ := answer_keeps config
    ((typing.restart config pass).paint config).1 pass.result
    ((typing.restart config pass).paint config).2
  unfold Typing.prepare
  dsimp only
  obtain ⟨heard, waits, keeps⟩ := hear_keeps config
    (((typing.restart config pass).paint config).1.answer config pass.result
      ((typing.restart config pass).paint config).2).1 pass.input
  exact ⟨heard.trans (answered.trans painted), waits.trans (waited.trans (by rw [waiting])),
    keeps.trans (kept.trans held)⟩

private theorem Ordered.restarted {world : Responder E} {pass : Pass} (ordered : Ordered world)
    (taken : world.pump = .taken pass) (config : Config E) :
    ((world.typings pass.index).restart config pass).owner = some pass.session := by
  unfold Typing.restart
  split
  · rfl
  · rename_i settled
    exact (ordered.taken pass taken).mp (by simpa using settled)

theorem passed_begin {world : Responder E} {pass : Pass} (ordered : Ordered world)
    (taken : world.pump = .taken pass) (config : Config E) (accepted : Bool) :
    Passed world pass (world.pumpBegin config pass accepted) := by
  obtain ⟨prepared, _, _⟩ := prepare_spec config (world.typings pass.index) pass
  have owner := prepared.trans (ordered.restarted taken config)
  unfold pumpBegin
  dsimp only
  split
  · refine passed_submit ?_ accepted
    exact owner
  · exact passed_settle owner

/-- The line the editor completed is noted for the pass's session. -/
theorem passed_of_typeLine {pass : Pass} {world next : Responder E} (line : Text)
    (passed : Passed (world.typeLine pass line) pass next) : Passed world pass next where
  slots := passed.slots
  sessions := passed.sessions
  others := passed.others
  owner := passed.owner
  pump := passed.pump
  queue := passed.queue
  typed := (grows_one pass world.typed line).trans passed.typed
  submitted := passed.submitted
  dropped := passed.dropped

theorem passed_poll {world : Responder E} {pass : Pass} (ordered : Ordered world)
    (polling : world.pump = .polling pass out) (config : Config E) (accepted : Bool) :
    Passed world pass (world.pumpPoll config pass out accepted) := by
  have owner := ordered.polling pass out polling
  unfold pumpPoll
  dsimp only
  split
  · rename_i editor emitted line polled
    apply passed_of_typeLine line
    unfold takeLine
    split
    · split
      · apply passed_settle
        exact owner
      · apply passed_refuse
        exact owner
    · refine passed_submit ?_ accepted
      exact owner
  · apply passed_finish
    exact owner

/-- What a step can be. -/
inductive Moved (config : Config E) (world : Responder E) : Event → Responder E → Prop
  | quiet (quiet : Quiet world next) : Moved config world event next
  | given (bytes : plaintext ≠ []) (missing : world.find origin = none)
      (allocated : Allocated world origin world.victim next) :
      Moved config world (.terminalIn target origin timestamp plaintext true) next
  | unbound (target : LinkTarget) (locked : Bool) :
      Moved config world (.unbind target locked) (world.unbindTarget target locked)
  | answered (queued : world.queue = command :: rest) (text : Text) (status : UInt8) :
      Moved config world (.commandResult text status)
        ({ world with queue := rest }.deliverCommandOutput command.origin text status)
  | took (idle : world.pump = .idle) (used : (world.slots i).used = true) (now : UInt64) :
      Moved config world (.pumpTake i now) (world.pumpTake i now)
  | began {pass : Pass} (taken : world.pump = .taken pass) (accepted : Bool) :
      Moved config world (.pumpBegin accepted) (world.pumpBegin config pass accepted)
  | polled {pass : Pass} (polling : world.pump = .polling pass out) (accepted : Bool) :
      Moved config world (.pumpPoll accepted) (world.pumpPoll config pass out accepted)

theorem moved_of_step {config : Config E} {world next : Responder E}
    (stepped : step config world event = some next) : Moved config world event next := by
  cases event with
  | terminalIn target origin timestamp plaintext locked =>
    cases stepped
    rcases world.onTerminalIn_cases target origin timestamp plaintext locked with
      quiet | ⟨bytes, rfl, missing⟩
    · exact .quiet quiet
    · exact .given bytes missing (onTerminalIn_new missing bytes target timestamp)
  | bind target =>
    cases stepped
    exact .quiet (quiet_bind world target)
  | unbind target locked =>
    simp only [step, Option.ite_none_left_eq_some, Option.some.injEq] at stepped
    obtain ⟨_, rfl⟩ := stepped
    exact .unbound target locked
  | asyncOutput origin text locked =>
    cases stepped
    exact .quiet (quiet_async world origin text locked)
  | commandResult text status =>
    simp only [step] at stepped
    split at stepped
    · rename_i command rest queued
      cases stepped
      exact .answered queued text status
    · contradiction
  | pumpTake i now =>
    simp only [step] at stepped
    split at stepped
    · rename_i idle
      simp only [Option.ite_none_right_eq_some, Option.some.injEq] at stepped
      obtain ⟨used, rfl⟩ := stepped
      exact .took idle used now
    · contradiction
  | pumpBegin accepted =>
    simp only [step] at stepped
    split at stepped
    · rename_i pass taken
      cases stepped
      exact .began taken accepted
    · contradiction
  | pumpPoll accepted =>
    simp only [step] at stepped
    split at stepped
    · rename_i pass out polling
      cases stepped
      exact .polled polling accepted
    · contradiction

theorem ordered_step {config : Config E} {world next : Responder E} (ordered : Ordered world)
    (stepped : step config world event = some next) : Ordered next := by
  cases moved_of_step stepped with
  | quiet quiet => exact ordered_of_calmer ordered quiet.calmer
  | given _ missing allocated => exact ordered_of_allocated ordered missing allocated
  | unbound target locked => exact ordered_of_calmer ordered (calmer_unbind world target locked)
  | @answered command rest queued text status =>
    have popped : Calmer world { world with queue := rest } := by
      refine ⟨fun _ used => ⟨used, rfl, rfl, rfl⟩, rfl, rfl, rfl, fun other member => ?_⟩
      simp only [noted, queued, List.mem_append, List.mem_cons] at member ⊢
      rcases member with ((old | old) | old) | old
      · exact Or.inl (Or.inl (Or.inl (Or.inr old)))
      · exact Or.inl (Or.inl (Or.inr old))
      · exact Or.inl (Or.inr old)
      · exact Or.inr old
    exact ordered_of_calmer (ordered_of_calmer ordered popped)
      (calmer_deliver { world with queue := rest } command.origin text status)
  | took idle used now => exact ordered_take ordered idle used now
  | began taken accepted =>
    exact ordered_of_passed ordered (by rw [taken]; rfl)
      (passed_begin ordered taken config accepted)
  | polled polling accepted =>
    exact ordered_of_passed ordered (by rw [polling]; rfl)
      (passed_poll ordered polling config accepted)

theorem ordered_start (editor : E) : Ordered (start editor) := by
  constructor
  case apart => exact fun _ _ used => by contradiction
  case slot => exact fun _ used => by contradiction
  case pass => exact fun _ under => by contradiction
  case owner => exact fun _ _ owns => by contradiction
  case noted => exact fun _ member => by contradiction
  case current => exact fun _ under => by contradiction
  case ready => exact fun _ used => by contradiction
  case fresh => exact fun _ used => by contradiction
  case taken => exact fun _ under => by contradiction
  case polling => exact fun _ _ under => by contradiction

end Responder
end BallyOS.Terminal
