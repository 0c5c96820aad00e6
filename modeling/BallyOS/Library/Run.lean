/-! Finite runs of a deterministic labelled machine. Everything the machine
does not decide itself (which task moves next, what a driver answers) is part
of the event, so a run is determined by its first state and its events, and a
property of every interleaving is a property of every list of events. -/
namespace BallyOS.Library

/-- A machine step: `none` when the event cannot happen in the state. -/
abbrev Machine (State Event : Type) := State → Event → Option State

/-- The state after the events, in order; `none` when one of them was not enabled. -/
def run (step : Machine State Event) : State → List Event → Option State
  | state, [] => some state
  | state, event :: rest => (step state event).bind fun next => run step next rest

/-- Every step of the run met the condition, which is about the state before
the step and the event taken there. -/
def Along (step : Machine State Event) (condition : State → Event → Prop) :
    State → List Event → Prop
  | _, [] => True
  | state, event :: rest => condition state event ∧
      ∀ next, step state event = some next → Along step condition next rest

@[simp] theorem run_nil (step : Machine State Event) (state : State) :
    run step state [] = some state := rfl

theorem run_cons {step : Machine State Event} :
    run step start (event :: rest) = some finish ↔
      ∃ next, step start event = some next ∧ run step next rest = some finish := by
  simp [run, Option.bind_eq_some_iff]

theorem run_append {step : Machine State Event} {first second : List Event} :
    run step start (first ++ second) = some finish ↔
      ∃ middle, run step start first = some middle ∧ run step middle second = some finish := by
  induction first generalizing start with
  | nil => simp
  | cons event rest ih =>
    simp only [List.cons_append, run_cons, ih]
    constructor
    · rintro ⟨next, stepped, middle, before, after⟩
      exact ⟨middle, ⟨next, stepped, before⟩, after⟩
    · rintro ⟨middle, ⟨next, stepped, before⟩, after⟩
      exact ⟨next, stepped, middle, before, after⟩

theorem along_cons {step : Machine State Event} {condition : State → Event → Prop}
    (meets : Along step condition start (event :: rest)) (stepped : step start event = some next) :
    Along step condition next rest :=
  meets.2 next stepped

theorem along_front {step : Machine State Event} {condition : State → Event → Prop}
    {front back : List Event} (meets : Along step condition start (front ++ back)) :
    Along step condition start front := by
  induction front generalizing start with
  | nil => trivial
  | cons event rest ih => exact ⟨meets.1, fun next stepped => ih (meets.2 next stepped)⟩

instance decidableAlong (step : Machine State Event) (condition : State → Event → Prop)
    [∀ state event, Decidable (condition state event)] :
    (start : State) → (events : List Event) → Decidable (Along step condition start events)
  | _, [] => isTrue trivial
  | start, event :: rest =>
    match stepped : step start event with
    | none => decidable_of_iff (condition start event)
        ⟨fun met => ⟨met, fun _ same => nomatch stepped.symm.trans same⟩, And.left⟩
    | some next =>
      have := decidableAlong step condition next rest
      decidable_of_iff (condition start event ∧ Along step condition next rest)
        ⟨fun both => ⟨both.1, fun _ same => Option.some.inj (stepped.symm.trans same) ▸ both.2⟩,
          fun meets => ⟨meets.1, along_cons meets stepped⟩⟩

/-- A run is checked against a condition one step at a time. -/
theorem along_of_step {step : Machine State Event} {condition : State → Event → Prop}
    (met : condition start event) (stepped : step start event = some next)
    (after : Along step condition next rest) : Along step condition start (event :: rest) := by
  refine ⟨met, fun other same => ?_⟩
  cases stepped.symm.trans same
  exact after

/-- A condition that always holds is met along every run. -/
theorem along_of_forall {step : Machine State Event} {condition : State → Event → Prop}
    (always : ∀ state event, condition state event) (start : State) (events : List Event) :
    Along step condition start events := by
  induction events generalizing start with
  | nil => trivial
  | cons event rest ih => exact ⟨always start event, fun next _ => ih next⟩

/-- A condition on the events alone is met along a run of such events. -/
theorem along_of_mem {step : Machine State Event} {condition : State → Event → Prop}
    (every : ∀ event ∈ events, ∀ state, condition state event) (start : State) :
    Along step condition start events := by
  induction events generalizing start with
  | nil => trivial
  | cons event rest ih =>
    exact ⟨every event List.mem_cons_self start,
      fun next _ => ih (fun later member => every later (List.mem_cons_of_mem _ member)) next⟩

/-- A run that meets two conditions meets what they give together. -/
theorem along_both {step : Machine State Event} {condition other both : State → Event → Prop}
    (gives : ∀ {state event}, condition state event → other state event → both state event)
    (meets : Along step condition start events) (also : Along step other start events) :
    Along step both start events := by
  induction events generalizing start with
  | nil => trivial
  | cons event rest ih =>
    exact ⟨gives meets.1 also.1, fun next stepped =>
      ih (along_cons meets stepped) (along_cons also stepped)⟩

/-- What holds first and is kept by every step meeting the condition holds
after every run that meets it. -/
theorem run_invariant_along {step : Machine State Event} {condition : State → Event → Prop}
    {invariant : State → Prop}
    (keeps : ∀ {state event next}, invariant state → condition state event →
      step state event = some next → invariant next)
    (holds : invariant start) (meets : Along step condition start events)
    (ran : run step start events = some finish) : invariant finish := by
  induction events generalizing start with
  | nil =>
    cases ran
    exact holds
  | cons event rest ih =>
    obtain ⟨next, stepped, after⟩ := run_cons.mp ran
    exact ih (keeps holds meets.1 stepped) (along_cons meets stepped) after

/-- The condition held at every step the run came to. -/
theorem along_at {step : Machine State Event} {condition : State → Event → Prop}
    {before after : List Event} (meets : Along step condition start (before ++ event :: after))
    (ran : run step start before = some state) : condition state event := by
  induction before generalizing start with
  | nil =>
    cases ran
    exact meets.1
  | cons first rest ih =>
    obtain ⟨next, stepped, after⟩ := run_cons.mp ran
    exact ih (along_cons meets stepped) after

/-- What an invariant gives at each state is met along a run whose steps keep it. -/
theorem along_of_invariant {step : Machine State Event} {condition property : State → Event → Prop}
    {invariant : State → Prop}
    (keeps : ∀ {state event next}, invariant state → condition state event →
      step state event = some next → invariant next)
    (gives : ∀ {state event}, invariant state → property state event)
    (holds : invariant start) (meets : Along step condition start events) :
    Along step property start events := by
  induction events generalizing start with
  | nil => trivial
  | cons event rest ih =>
    exact ⟨gives holds, fun next stepped =>
      ih (keeps holds meets.1 stepped) (along_cons meets stepped)⟩

/-- Where each step keeps an invariant exactly under a condition, a whole run
does so exactly under it too. `always` is what every step keeps. -/
theorem along_keeps_iff {step : Machine State Event} {condition : State → Event → Prop}
    {always invariant : State → Prop}
    (kept : ∀ {state event next}, always state → step state event = some next → always next)
    (keeps_iff : ∀ {state event}, always state → invariant state →
      ((∀ next, step state event = some next → invariant next) ↔ condition state event))
    (ever : always start) (holds : invariant start) (events : List Event) :
    Along step (fun state event => ∀ next, step state event = some next → invariant next)
        start events ↔ Along step condition start events := by
  induction events generalizing start with
  | nil => exact Iff.rfl
  | cons event rest ih =>
    simp only [Along, keeps_iff ever holds]
    refine and_congr_right fun met => forall_congr' fun next => imp_congr_right fun stepped => ?_
    exact ih (kept ever stepped) ((keeps_iff ever holds).mpr met next stepped)

/-- Two conditions that agree in every state of a run are met along the same runs. -/
theorem along_congr {step : Machine State Event} {condition other : State → Event → Prop}
    {always : State → Prop}
    (kept : ∀ {state event next}, always state → step state event = some next → always next)
    (agree : ∀ {state event}, always state → (condition state event ↔ other state event))
    (ever : always start) (events : List Event) :
    Along step condition start events ↔ Along step other start events := by
  induction events generalizing start with
  | nil => exact Iff.rfl
  | cons event rest ih =>
    simp only [Along, agree ever]
    exact and_congr_right fun _ => forall_congr' fun next => imp_congr_right fun stepped =>
      ih (kept ever stepped)

/-- What holds first and is kept by every step holds after every run. -/
theorem run_invariant {step : Machine State Event} {invariant : State → Prop}
    (keeps : ∀ {state event next}, invariant state → step state event = some next →
      invariant next)
    (holds : invariant start) (ran : run step start events = some finish) : invariant finish := by
  have free : Along step (fun _ _ => True) start events :=
    along_of_forall (fun _ _ => trivial) start events
  exact run_invariant_along (fun held _ stepped => keeps held stepped) holds free ran

end BallyOS.Library
