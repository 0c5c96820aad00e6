import Mathlib.Data.List.Chain
import BallyOS.Library.Recent
import BallyOS.StateMachine.Machine

/-! The transition history, with each call of `run` and `next` taken as a whole. Only the calls
that return a state record what they do. -/
namespace BallyOS.StateMachine.History
open Library

structure TransitionRecord where
  before : StateName := .none
  after : StateName := .none
  uptimeMs : UInt32 := 0
deriving Repr, DecidableEq

def kHistoryDepth : Nat := 8

/-- `changes` are the changes of the state by `run` and `next`, the latest first. Nobody keeps
them. -/
structure Chronicle where
  currentState : StateName
  ring : Recent TransitionRecord := { slots := fun _ => {} }
  changes : List (StateName × StateName) := []

/-- The state goes over. -/
def Chronicle.store (chronicle : Chronicle) (state : StateName) : Chronicle where
  currentState := state
  ring := chronicle.ring
  changes := if chronicle.currentState = state then chronicle.changes
    else (chronicle.currentState, state) :: chronicle.changes

def Chronicle.recordTransition (chronicle : Chronicle) (before after : StateName)
    (uptimeMs : UInt32) : Chronicle :=
  if before = after then chronicle
  else { chronicle with ring := chronicle.ring.note kHistoryDepth ⟨before, after, uptimeMs⟩ }

/-- The error callback logs; then the state is ERROR. -/
def Chronicle.reportError (chronicle : Chronicle) : Chronicle := chronicle.store .error

/-- What comes of a call: no mutex, or the callback, if the state has one, returns a state or
throws. -/
inductive Outcome
  | takeFailed
  | returned (nextState : StateName)
  | threw
deriving Repr, DecidableEq

/-- `run` calls the state's `action`, and `next` its `next_state`. -/
structure Event where
  mover : Mover
  outcome : Outcome
  uptimeMs : UInt32 := 0
deriving Repr, DecidableEq

def call (defined : Mover → StateName → Bool) (chronicle : Chronicle) (event : Event) :
    Chronicle :=
  match event.outcome with
  | .takeFailed => chronicle.reportError
  | outcome =>
    let activeState := chronicle.currentState
    if !verifyState activeState then chronicle.reportError
    else if !defined event.mover activeState then chronicle.reportError
    else match outcome with
      | .returned nextState =>
        (chronicle.store nextState).recordTransition activeState nextState event.uptimeMs
      | _ => chronicle.reportError.reportError

def step (defined : Mover → StateName → Bool) : Machine Chronicle Event :=
  fun chronicle event => some (call defined chronicle event)

/-- The latest records, as many as are wanted, the newest first. -/
def Chronicle.history (chronicle : Chronicle) (maxRecords : Nat) : List TransitionRecord :=
  chronicle.ring.latest kHistoryDepth maxRecords

def TransitionRecord.change (record : TransitionRecord) : StateName × StateName :=
  (record.before, record.after)

/-- The call ends in `reportError`. -/
def EndsInError (defined : Mover → StateName → Bool) (chronicle : Chronicle) (event : Event) :
    Prop :=
  event.outcome = .takeFailed ∨ verifyState chronicle.currentState = false ∨
    defined event.mover chronicle.currentState = false ∨ event.outcome = .threw

/-- What a call can do: what it returns is stored and recorded, or it ends in ERROR. -/
theorem call_cases (defined : Mover → StateName → Bool) (chronicle : Chronicle) (event : Event) :
    (∃ nextState, ¬ EndsInError defined chronicle event ∧ call defined chronicle event =
      (chronicle.store nextState).recordTransition chronicle.currentState nextState
        event.uptimeMs) ∨
    (EndsInError defined chronicle event ∧
      call defined chronicle event = chronicle.store .error) := by
  obtain ⟨mover, outcome, uptimeMs⟩ := event
  by_cases valid : verifyState chronicle.currentState = true
  case neg =>
    have none := Bool.eq_false_iff.mpr valid
    refine .inr ⟨.inr (.inl none), ?_⟩
    cases outcome <;> simp [call, none, Chronicle.reportError]
  by_cases set : defined mover chronicle.currentState = true
  case neg =>
    have none := Bool.eq_false_iff.mpr set
    refine .inr ⟨.inr (.inr (.inl none)), ?_⟩
    cases outcome <;> simp [call, valid, none, Chronicle.reportError]
  cases outcome with
  | takeFailed => exact .inr ⟨.inl rfl, rfl⟩
  | returned nextState =>
    refine .inl ⟨nextState, ?_, ?_⟩
    · simp [EndsInError, valid, set]
    · simp [call, valid, set]
  | threw =>
    refine .inr ⟨.inr (.inr (.inr rfl)), ?_⟩
    simp [call, valid, set, Chronicle.reportError, Chronicle.store]

/-- How the history and the changes of the state stand to each other, whatever was called. -/
structure Told (chronicle : Chronicle) : Prop where
  formed : chronicle.ring.WellFormed kHistoryDepth
  linked : chronicle.changes.IsChain fun newer older => newer.1 = older.2
  newest : ∀ change ∈ chronicle.changes.head?, change.2 = chronicle.currentState

/-- The history is a faithful chain: the last changes of the state, each from where the one
before it went to, and the newest to the state that is current. -/
structure Faithful (chronicle : Chronicle) : Prop where
  last : ∀ wanted, (chronicle.history wanted).map TransitionRecord.change =
    chronicle.changes.take (min wanted kHistoryDepth)
  chain : ∀ wanted, (chronicle.history wanted).IsChain fun newer older =>
    newer.before = older.after
  newest : chronicle.changes ≠ [] → ∃ record, (chronicle.history 1).head? = some record ∧
    record.after = chronicle.currentState

private theorem told_store {chronicle : Chronicle} (told : Told chronicle) (state : StateName) :
    Told (chronicle.store state) := by
  obtain ⟨formed, linked, newest⟩ := told
  unfold Chronicle.store
  split
  · rename_i same
    exact ⟨formed, linked, fun change member => (newest change member).trans same⟩
  · refine ⟨formed, ?_, ?_⟩
    · dsimp only
      cases changes : chronicle.changes with
      | nil => exact .singleton _
      | cons change rest =>
        rw [changes] at linked newest
        exact .cons_cons (newest change rfl).symm linked
    · rintro change ⟨⟩
      rfl

private theorem told_record {chronicle : Chronicle} (told : Told chronicle)
    (before after : StateName)
    (uptimeMs : UInt32) : Told (chronicle.recordTransition before after uptimeMs) := by
  unfold Chronicle.recordTransition
  split
  · exact told
  · exact ⟨Recent.wellFormed_note told.formed _, told.linked, told.newest⟩

private theorem told_step {defined : Mover → StateName → Bool} {chronicle next : Chronicle}
    {event : Event} (told : Told chronicle) (stepped : step defined chronicle event = some next) :
    Told next := by
  cases stepped
  obtain ⟨state, -, goes⟩ | ⟨-, goes⟩ := call_cases defined chronicle event
  · rw [goes]
    exact told_record (told_store told state) ..
  · rw [goes]
    exact told_store told .error

/-- All of it follows from the ring holding the last eight changes. -/
theorem faithful_of_ring {chronicle : Chronicle} (told : Told chronicle)
    (ring : (chronicle.ring.latest kHistoryDepth kHistoryDepth).map TransitionRecord.change =
      chronicle.changes.take kHistoryDepth) : Faithful chronicle := by
  have last : ∀ wanted, (chronicle.history wanted).map TransitionRecord.change =
      chronicle.changes.take (min wanted kHistoryDepth) := by
    intro wanted
    rw [Chronicle.history, Recent.latest_eq_take told.formed, List.map_take, ring, List.take_take]
  refine ⟨last, fun wanted => ?_, fun some => ?_⟩
  · have linked : ((chronicle.history wanted).map TransitionRecord.change).IsChain
        fun newer older => newer.1 = older.2 := by
      rw [last]
      exact told.linked.take _
    exact (List.isChain_map _).mp linked
  · obtain ⟨change, rest, changes⟩ := List.exists_cons_of_ne_nil some
    have one := last 1
    rw [changes] at one
    cases newest : chronicle.history 1 with
    | nil =>
      rw [newest] at one
      cases one
    | cons record older =>
      rw [newest] at one
      have same : record.change = change := (List.cons.inj one).1
      refine ⟨record, rfl, ?_⟩
      rw [← told.newest change (by rw [changes]; rfl), ← same]
      rfl

private theorem ring_of_faithful {chronicle : Chronicle} (faithful : Faithful chronicle) :
    (chronicle.ring.latest kHistoryDepth kHistoryDepth).map TransitionRecord.change =
      chronicle.changes.take kHistoryDepth :=
  faithful.last kHistoryDepth

/-- A call that ends in an error ends where it began. -/
def Unmoved (defined : Mover → StateName → Bool) (chronicle : Chronicle) (event : Event) : Prop :=
  EndsInError defined chronicle event → chronicle.currentState = .error

private theorem faithful_returned {chronicle : Chronicle} (told : Told chronicle)
    (faithful : Faithful chronicle) (state : StateName) (uptimeMs : UInt32) :
    Faithful ((chronicle.store state).recordTransition chronicle.currentState state uptimeMs) := by
  apply faithful_of_ring (told_record (told_store told state) ..)
  unfold Chronicle.recordTransition Chronicle.store
  split
  · have ring := ring_of_faithful faithful
    exact ring
  · have depth : kHistoryDepth = 7 + 1 := rfl
    dsimp only
    rw [Recent.latest_note told.formed, List.map_take, List.map_cons, ring_of_faithful faithful,
      depth, List.take_succ_cons, List.take_succ_cons, List.take_take]
    rfl

private theorem faithful_iff {defined : Mover → StateName → Bool} {chronicle : Chronicle}
    {event : Event}
    (told : Told chronicle) (faithful : Faithful chronicle) :
    (∀ next, step defined chronicle event = some next → Faithful next) ↔
      Unmoved defined chronicle event := by
  have only : (∀ next, step defined chronicle event = some next → Faithful next) ↔
      Faithful (call defined chronicle event) := by
    constructor
    · exact fun every => every _ rfl
    · rintro holds _ ⟨⟩
      exact holds
  rw [only]
  obtain ⟨state, returns, goes⟩ | ⟨errs, goes⟩ := call_cases defined chronicle event
  · rw [goes]
    exact ⟨fun _ errs => absurd errs returns, fun _ => faithful_returned told faithful ..⟩
  rw [goes]
  constructor
  · intro after _
    by_contra moves
    -- the newest record goes to the state that ERROR replaced
    have changed : (chronicle.store .error).changes ≠ [] := by
      rw [Chronicle.store, if_neg moves]
      exact List.cons_ne_nil _ _
    obtain ⟨record, newest, current⟩ := after.newest changed
    have some : chronicle.changes ≠ [] := by
      intro none
      have empty := faithful.last 1
      rw [none, List.take_nil, List.map_eq_nil_iff] at empty
      rw [Chronicle.history, Chronicle.store] at newest
      rw [Chronicle.history] at empty
      rw [empty] at newest
      cases newest
    obtain ⟨before, same, stood⟩ := faithful.newest some
    obtain rfl : before = record := Option.some.inj (same.symm.trans newest)
    exact moves (stood.symm.trans current)
  · intro unmoved
    have same := unmoved errs
    have stays : chronicle.store .error = chronicle := by
      unfold Chronicle.store
      rw [if_pos same, ← same]
    rw [stays]
    exact faithful

/-- The machine in the state it was booted into. -/
def boot (bootState : StateName) : Chronicle := { currentState := bootState }

theorem history_faithful_iff (defined : Mover → StateName → Bool) (bootState : StateName)
    (events : List Event) :
    Along (step defined)
        (fun chronicle event => ∀ next, step defined chronicle event = some next → Faithful next)
        (boot bootState) events ↔
      Along (step defined) (Unmoved defined) (boot bootState) events := by
  have told : Told (boot bootState) :=
    ⟨⟨Nat.zero_lt_succ 7, Nat.zero_le _⟩, .nil, nofun⟩
  have faithful : Faithful (boot bootState) := faithful_of_ring told rfl
  exact along_keeps_iff told_step faithful_iff told faithful events

/-- Three states, and an action that throws in the last. -/
def throwsInRun : List Event :=
  [⟨.next, .returned .debug, 10⟩, ⟨.next, .returned .run, 20⟩, ⟨.run, .threw, 30⟩]

/-- The state is ERROR, and the newest record goes to RUN. -/
theorem error_unrecorded : ¬ ∀ (defined : Mover → StateName → Bool) (bootState : StateName)
    (events : List Event) (chronicle : Chronicle),
    run (step defined) (boot bootState) events = some chronicle → Faithful chronicle := by
  intro always
  have faithful := always (fun _ _ => true) .wait throwsInRun _ rfl
  obtain ⟨record, newest, current⟩ := faithful.newest (by decide)
  cases newest
  exact absurd current (by decide)

end BallyOS.StateMachine.History
