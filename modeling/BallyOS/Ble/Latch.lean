import BallyOS.Ble.Server

/-! The `notify_in_flight_` latch. While a connection is up at most one call
pumps, and the latch is set exactly while a call pumps or one completion is
owed. A pump that survives a reconnect would break this, so a connection has
to begin with none. -/
namespace BallyOS.Ble
open Library Transport

/-- What the latch promises during one connection. -/
structure Latched (world : World) : Prop where
  sole : Sole Call.Pumps world.calls
  pumping : ∀ task, (world.calls task).Pumps →
    world.notifyInFlight = true ∧ world.completions = 0
  owed : 0 < world.completions → world.completions = 1 ∧ world.notifyInFlight = true
  held : world.notifyInFlight = true →
    world.completions = 1 ∨ ∃ task, (world.calls task).Pumps

/-- A connection begins only when no call is still pumping for the last one. -/
def NoPump (calls : Nat → Call) : Prop := ∀ task, ¬(calls task).Pumps

section goto
variable {world : World} {task : Nat} {call : Call}

@[simp] theorem goto_connected : (world.goto task call).connected = world.connected := rfl

@[simp] theorem goto_notificationsEnabled :
    (world.goto task call).notificationsEnabled = world.notificationsEnabled := rfl

@[simp] theorem goto_sendQueue : (world.goto task call).sendQueue = world.sendQueue := rfl

@[simp] theorem goto_notifyInFlight :
    (world.goto task call).notifyInFlight = world.notifyInFlight := rfl

@[simp] theorem goto_completions : (world.goto task call).completions = world.completions := rfl

@[simp] theorem goto_admitted : (world.goto task call).admitted = world.admitted := rfl

@[simp] theorem goto_handed : (world.goto task call).handed = world.handed := rfl

@[simp] theorem goto_lost : (world.goto task call).lost = world.lost := rfl

@[simp] theorem goto_hasClient : (world.goto task call).hasClient = world.hasClient := rfl

private theorem goto_calls : (world.goto task call).calls = Function.update world.calls task call :=
    rfl

@[simp] theorem goto_calls_self : (world.goto task call).calls task = call := by
  simp [goto_calls]

private theorem goto_calls_of_ne (other : another ≠ task) :
    (world.goto task call).calls another = world.calls another := by
  simp [goto_calls, Function.update_of_ne other]

/-- Some call has a property after a move when the moved one has it, or when
one that is not the moved one had it. -/
theorem exists_goto {property : Call → Prop} (held : ∃ another, property (world.calls another))
    (here : property (world.calls task) → property call) :
    ∃ another, property ((world.goto task call).calls another) := by
  obtain ⟨another, holding⟩ := held
  by_cases same : another = task
  · subst same
    exact ⟨another, by simpa using here holding⟩
  · exact ⟨another, by rwa [goto_calls_of_ne same]⟩

end goto

/-- Only the calls and the two latch fields matter, and a move between two
calls on the same side of the latch changes nothing. -/
private theorem latched_of_same_side {world next : World} (latched : Latched world)
    (calls : next.calls = Function.update world.calls task call)
    (side : call.Pumps ↔ (world.calls task).Pumps)
    (flight : next.notifyInFlight = world.notifyInFlight)
    (owing : next.completions = world.completions) : Latched next := by
  have pumps : ∀ another, (next.calls another).Pumps ↔ (world.calls another).Pumps := by
    rw [calls]
    exact (forall_update fun another (now : Call) => now.Pumps ↔ (world.calls another).Pumps).mpr
      ⟨side, fun _ _ => Iff.rfl⟩
  constructor
  · rw [calls]
    exact sole_update_of_holds latched.sole side.mp
  · intro another pump
    rw [flight, owing]
    exact latched.pumping another ((pumps another).mp pump)
  · rw [flight, owing]
    exact latched.owed
  · rw [flight, owing]
    intro set
    rcases latched.held set with one | ⟨another, pump⟩
    · exact .inl one
    · exact .inr ⟨another, (pumps another).mpr pump⟩

/-- With the latch clear nobody pumps and nothing is owed. -/
theorem Latched.clear (latched : Latched world) (clear : world.notifyInFlight = false) :
    NoPump world.calls ∧ world.completions = 0 := by
  constructor
  · intro task pump
    have := (latched.pumping task pump).1
    simp [clear] at this
  · by_contra owing
    have := (latched.owed (by omega)).2
    simp [clear] at this

/-- When nobody pumps and nothing is owed, the latch may be clear. -/
private theorem latched_of_clear {world : World} (idle : NoPump world.calls)
    (clear : world.notifyInFlight = false) (none : world.completions = 0) : Latched world where
  sole first _ one _ := absurd one (idle first)
  pumping task pump := absurd pump (idle task)
  owed owing := by omega
  held set := by simp [clear] at set

private theorem latched_claimed (latched : Latched world)
    (clear : world.notifyInFlight = false) :
    Latched ({ world with notifyInFlight := true }.goto task .fill) := by
  obtain ⟨idle, none⟩ := latched.clear clear
  constructor
  · exact sole_update_of_none idle
  · exact fun _ _ => ⟨rfl, none⟩
  · exact fun owing => absurd owing (by simp [none])
  · exact fun _ => .inr ⟨task, by simp [Call.Pumps]⟩

/-- When the only pump stops pumping, nobody is left. -/
theorem noPump_update {calls : Nat → Call} (sole : Sole Call.Pumps calls)
    (pump : (calls task).Pumps) (stops : ¬call.Pumps) :
    NoPump (Function.update calls task call) := by
  refine (forall_update fun _ (now : Call) => ¬now.Pumps).mpr ?_
  exact ⟨stops, fun another other still => other (sole another task still pump)⟩

private theorem latched_notified {world : World} (latched : Latched world)
    (here : world.calls task = .notify chunk) :
    Latched ({ world with
      handed := world.handed ++ chunk
      completions := world.completions + 1 }.goto task .idle) := by
  have pump : (world.calls task).Pumps := by simp [here, Call.Pumps]
  obtain ⟨set, none⟩ := latched.pumping task pump
  have gone : NoPump (Function.update world.calls task .idle) :=
    noPump_update latched.sole pump (by simp [Call.Pumps])
  constructor
  · exact fun first _ one _ => absurd one (gone first)
  · exact fun another still => absurd still (gone another)
  · exact fun _ => ⟨by simp [none], set⟩
  · exact fun _ => .inl (by simp [none])

private theorem latched_completed {world : World} (latched : Latched world)
    (owing : 0 < world.completions) :
    Latched ({ world with
      completions := world.completions - 1
      notifyInFlight := false }.goto task .drain) := by
  obtain ⟨one, -⟩ := latched.owed owing
  refine latched_of_clear ?_ rfl (by simp [one])
  refine (forall_update fun _ (now : Call) => ¬now.Pumps).mpr ?_
  refine ⟨by simp [Call.Pumps], fun another _ pump => ?_⟩
  have := (latched.pumping another pump).2
  omega

/-- The latch keeps its promise over every connection that begins with no
pump left over. -/
theorem latched_step (latched : world.connected = true → Latched world)
    (fresh : event = .connect → NoPump world.calls) (stepped : step world event = some next) :
    next.connected = true → Latched next := by
  intro up
  cases moved_of_step stepped with
  | sendRefused => exact latched up
  | sendAccepted here | enqueueRefused here | drainClient here | drainAlone here | claimTaken here
  | fillEmpty here =>
    exact latched_of_same_side (latched up) rfl (by simp [here, Call.Pumps]) rfl rfl
  | enqueued here | filled here | fillFailed here | notifyRefused here =>
    exact latched_of_same_side (latched up) rfl (by simp [here, Call.Pumps]) rfl rfl
  | claimed _ clear => exact latched_claimed (latched up) clear
  | notified here => exact latched_notified (latched up) here
  | @released task here =>
    have pump : (world.calls task).Pumps := by simp [here, Call.Pumps]
    have gone : NoPump (Function.update world.calls task .idle) :=
      noPump_update (latched up).sole pump (by simp [Call.Pumps])
    exact latched_of_clear gone rfl ((latched up).pumping task pump).2
  | completed _ owing => exact latched_completed (latched up) owing
  | connected => exact latched_of_clear (fresh rfl) rfl rfl
  | disconnected => simp at up
  | subscribed | mtuChanged =>
    obtain ⟨sole, pumping, owed, held⟩ := latched up
    exact ⟨sole, pumping, owed, held⟩

end BallyOS.Ble
