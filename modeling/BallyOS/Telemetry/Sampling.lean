import BallyOS.Library.Pacing
import BallyOS.StateMachine.Machine
import BallyOS.Telemetry.Targets

/-! What the state machine's task samples for telemetry, tick after tick. Four
topics go by the rate that their subscribers ask for together, each with a time
of its own at which it is next due; the robot's state goes out when it changes. -/
namespace BallyOS.Telemetry
open Library StateMachine

def kProtocolTestTopicId : UInt16 := 0x0001
def kSensorsTopicId : UInt16 := 0x0004
def kFlagsTopicId : UInt16 := 0x0005

/-- The topics that go by a rate. -/
inductive Periodic
  | protocolTest | systemMonitor | sensors | flags
deriving Repr, DecidableEq

def Periodic.topicId : Periodic → UInt16
  | .protocolTest => kProtocolTestTopicId
  | .systemMonitor => kSystemMonitorTopicId
  | .sensors => kSensorsTopicId
  | .flags => kFlagsTopicId

def topicPeriodUs (bindings : Bindings Endpoint Seal) (topicId : UInt16) : UInt64 :=
  let rate := topicEffectiveRateMillihz bindings topicId
  if rate = 0 then 0 else 1000000000 / rate.toUInt64

/-- Floats are kept as their bits. -/
structure SensorReadings where
  encLinearSpeed : UInt32
  encAngularSpeed : UInt32
  gyroZ : UInt32
  accelX : UInt32
  accelY : UInt32
  currentA : UInt16
  currentB : UInt16
  arraySensor : List UInt16
deriving Repr, DecidableEq

structure FlagReadings where
  buttons : UInt8
  sideSensors : UInt8
  leds : UInt8
  motorLeft : Int16
  motorRight : Int16
deriving Repr, DecidableEq

/-- What the robot is like at a tick: the time since it started, who is bound, and what would be
read. The clock is a signed count. -/
structure Tick (Endpoint Seal : Type) where
  nowUs : UInt64
  signed : nowUs.toNat < 2 ^ 63
  bindings : Bindings Endpoint Seal
  currentState : StateName
  report : List UInt8
  sensors : SensorReadings
  flags : FlagReadings

/-- A call of one of the publisher's functions. -/
inductive Publication
  | protocolTest (counter value : UInt32) (nowUs : UInt64)
  | systemMonitor (report : List UInt8) (nowUs : UInt64)
  | robotState (state : StateName) (nowUs : UInt64)
  | sensors (readings : SensorReadings) (arraySensorRaw : List UInt8) (nowUs : UInt64)
  | flags (buttons sideSensors leds : UInt8) (pwmLeft pwmRight : Int8) (nowUs : UInt64)
deriving Repr, DecidableEq

structure Schedule where
  nextUs : Periodic → UInt64
  protocolTestCounter : UInt32
  lastTelemetryState : StateName

def Schedule.initial : Schedule where
  nextUs _ := 0
  protocolTestCounter := 0
  lastTelemetryState := .none

def kEdgeFloatBits : UInt32 := 0x3F0D0A00

/-- The topic has a period and its time has come. -/
def due (nextUs periodUs nowUs : UInt64) : Bool := periodUs ≠ 0 && nextUs ≤ nowUs

/-- While nobody is subscribed the time is kept at now. -/
def rearmed (nextUs periodUs nowUs : UInt64) : UInt64 :=
  if due nextUs periodUs nowUs then nowUs + periodUs
  else if periodUs = 0 then nowUs
  else nextUs

def Tick.periodUs (tick : Tick Endpoint Seal) (topic : Periodic) : UInt64 :=
  topicPeriodUs tick.bindings topic.topicId

/-- The calls of the publisher, in order. -/
def sampleTelemetry (schedule : Schedule) (tick : Tick Endpoint Seal) :
    List Publication × Schedule :=
  let now := tick.nowUs
  let dueNow := fun topic => due (schedule.nextUs topic) (tick.periodUs topic) now
  let test :=
    if dueNow .protocolTest then
      [.protocolTest schedule.protocolTestCounter kEdgeFloatBits now]
    else []
  let monitor := if dueNow .systemMonitor then [.systemMonitor tick.report now] else []
  let state :=
    if tick.currentState ≠ schedule.lastTelemetryState then [.robotState tick.currentState now]
    else []
  let sensors :=
    if dueNow .sensors then
      [.sensors tick.sensors
        (tick.sensors.arraySensor.map fun (raw : UInt16) => (raw >>> 4).toUInt8) now]
    else []
  let flags :=
    if dueNow .flags then
      [.flags tick.flags.buttons tick.flags.sideSensors tick.flags.leds
        tick.flags.motorLeft.toInt8 tick.flags.motorRight.toInt8 now]
    else []
  (test ++ monitor ++ state ++ sensors ++ flags,
    { nextUs := fun topic => rearmed (schedule.nextUs topic) (tick.periodUs topic) now
      protocolTestCounter :=
        if dueNow .protocolTest then schedule.protocolTestCounter + 1
        else schedule.protocolTestCounter
      lastTelemetryState := tick.currentState })

/-- After these ticks, the latest first. -/
def scheduled : List (Tick Endpoint Seal) → Schedule
  | [] => .initial
  | tick :: earlier => (sampleTelemetry (scheduled earlier) tick).2

/-- What is published at a tick that follows others. -/
def published (tick : Tick Endpoint Seal) (earlier : List (Tick Endpoint Seal)) :
    List Publication :=
  (sampleTelemetry (scheduled earlier) tick).1

def Publication.nowUs : Publication → UInt64
  | .protocolTest _ _ nowUs => nowUs
  | .systemMonitor _ nowUs => nowUs
  | .robotState _ nowUs => nowUs
  | .sensors _ _ nowUs => nowUs
  | .flags _ _ _ _ _ nowUs => nowUs

def Publication.topic : Publication → Option Periodic
  | .protocolTest .. => some .protocolTest
  | .systemMonitor .. => some .systemMonitor
  | .robotState .. => none
  | .sensors .. => some .sensors
  | .flags .. => some .flags

def Publishes (topic : Periodic) (tick : Tick Endpoint Seal)
    (earlier : List (Tick Endpoint Seal)) : Prop :=
  ∃ publication ∈ published tick earlier, publication.topic = some topic

instance (topic : Periodic) (tick : Tick Endpoint Seal) (earlier : List (Tick Endpoint Seal)) :
    Decidable (Publishes topic tick earlier) :=
  inferInstanceAs (Decidable (∃ _ ∈ _, _))

/-- The comparison that the code makes. -/
def Due (tick : Tick Endpoint Seal) (earlier : List (Tick Endpoint Seal)) (topic : Periodic) :
    Prop :=
  due ((scheduled earlier).nextUs topic) (tick.periodUs topic) tick.nowUs = true

instance (tick : Tick Endpoint Seal) (earlier : List (Tick Endpoint Seal)) (topic : Periodic) :
    Decidable (Due tick earlier topic) :=
  inferInstanceAs (Decidable (_ = _))

/-- What its subscribers ask for together, in a thousandth of a hertz. -/
def rateAt (topic : Periodic) (tick : Tick Endpoint Seal) : Nat :=
  (topicEffectiveRateMillihz tick.bindings topic.topicId).toNat

/-- Somebody wants the topic. Asked for more than a million times a second, it has no period. -/
def Wanted (topic : Periodic) (tick : Tick Endpoint Seal) : Prop :=
  0 < rateAt topic tick ∧ rateAt topic tick ≤ 1000000000

instance (topic : Periodic) (tick : Tick Endpoint Seal) : Decidable (Wanted topic tick) :=
  inferInstanceAs (Decidable (_ ∧ _))

/-- The whole microseconds between two samples at that rate. -/
def periodAt (topic : Periodic) (tick : Tick Endpoint Seal) : Nat :=
  1000000000 / rateAt topic tick

/-- How many test samples were published. -/
def testSamples : List (Tick Endpoint Seal) → Nat
  | [] => 0
  | tick :: earlier =>
    testSamples earlier + if Publishes .protocolTest tick earlier then 1 else 0

/-- The state at the last tick; the robot starts in none. -/
def stateBefore : List (Tick Endpoint Seal) → StateName
  | [] => .none
  | tick :: _ => tick.currentState

/-- What a tick publishes, from the ticks before it alone. -/
structure Sampled (tick : Tick Endpoint Seal) (earlier : List (Tick Endpoint Seal)) : Prop where
  periodic : ∀ topic, Publishes topic tick earlier ↔ Wanted topic tick ∧
    ∀ since last before, earlier = since ++ last :: before → (∀ other ∈ since, Wanted topic other) →
      Publishes topic last before →
        last.nowUs.toNat + periodAt topic last ≤ tick.nowUs.toNat
  counted : ∀ counter value nowUs,
    .protocolTest counter value nowUs ∈ published tick earlier →
      counter = UInt32.ofNat (testSamples earlier) ∧ value = kEdgeFloatBits
  changed : ∀ state nowUs, .robotState state nowUs ∈ published tick earlier ↔
    state = tick.currentState ∧ nowUs = tick.nowUs ∧ tick.currentState ≠ stateBefore earlier
  stamped : ∀ publication ∈ published tick earlier, publication.nowUs = tick.nowUs

/-- The tick as a beat of the topic's duty. -/
def beatOf (topic : Periodic) (tick : Tick Endpoint Seal) : Beat Nat where
  now := tick.nowUs.toNat
  wanted := Wanted topic tick
  period := periodAt topic tick

private theorem toNat_periodUs (tick : Tick Endpoint Seal) (topic : Periodic) :
    (tick.periodUs topic).toNat = periodAt topic tick := by
  unfold Tick.periodUs topicPeriodUs periodAt rateAt
  dsimp only
  split
  · rename_i unasked
    rw [unasked]
    rfl
  · rw [UInt64.toNat_div, UInt32.toNat_toUInt64]
    rfl

private theorem periodUs_ne_zero (tick : Tick Endpoint Seal) (topic : Periodic) :
    tick.periodUs topic ≠ 0 ↔ Wanted topic tick := by
  have whole : tick.periodUs topic ≠ 0 ↔ periodAt topic tick ≠ 0 := by
    rw [← toNat_periodUs, not_iff_not, ← UInt64.toNat_inj]
    rfl
  rw [whole, periodAt, Wanted, Ne, Nat.div_eq_zero_iff]
  omega

private theorem periodAt_le (topic : Periodic) (tick : Tick Endpoint Seal) :
    periodAt topic tick ≤ 1000000000 := Nat.div_le_self ..

private theorem due_iff_beat (topic : Periodic) (tick : Tick Endpoint Seal) (nextUs : UInt64) :
    due nextUs (tick.periodUs topic) tick.nowUs = true ↔ (beatOf topic tick).due nextUs.toNat := by
  rw [due, Bool.and_eq_true, decide_eq_true_iff, decide_eq_true_iff, periodUs_ne_zero, Beat.due,
    UInt64.le_iff_toNat_le]
  simp [beatOf]

private theorem toNat_rearmed (topic : Periodic) (tick : Tick Endpoint Seal) (nextUs : UInt64) :
    (rearmed nextUs (tick.periodUs topic) tick.nowUs).toNat =
      (beatOf topic tick).rearm nextUs.toNat := by
  have signed := tick.signed
  have short := periodAt_le topic tick
  unfold rearmed Beat.rearm
  by_cases now : (beatOf topic tick).due nextUs.toNat
  · rw [if_pos ((due_iff_beat topic tick nextUs).mpr now), if_pos now, UInt64.toNat_add,
      toNat_periodUs, Nat.mod_eq_of_lt (by omega)]
    rfl
  · rw [if_neg (mt (due_iff_beat topic tick nextUs).mp now), if_neg now]
    by_cases wanted : Wanted topic tick
    · have asked : (beatOf topic tick).wanted = true := decide_eq_true wanted
      rw [if_neg ((periodUs_ne_zero tick topic).mpr wanted), if_pos asked]
    · have unasked : ¬(beatOf topic tick).wanted = true :=
        fun asked => wanted (of_decide_eq_true asked)
      rw [if_pos (not_not.mp (mt (periodUs_ne_zero tick topic).mp wanted)), if_neg unasked]
      rfl

private theorem toNat_nextUs (topic : Periodic) (earlier : List (Tick Endpoint Seal)) :
    ((scheduled earlier).nextUs topic).toNat = nextAfter 0 (earlier.map (beatOf topic)) := by
  induction earlier with
  | nil => rfl
  | cons tick earlier ih =>
    rw [scheduled, List.map_cons, nextAfter, ← ih]
    exact toNat_rearmed topic tick _

/-- What one tick publishes. -/
theorem mem_published {publication : Publication} {tick : Tick Endpoint Seal}
    {earlier : List (Tick Endpoint Seal)} : publication ∈ published tick earlier ↔
      (Due tick earlier .protocolTest ∧ publication =
          .protocolTest (scheduled earlier).protocolTestCounter kEdgeFloatBits tick.nowUs) ∨
        (Due tick earlier .systemMonitor ∧ publication = .systemMonitor tick.report tick.nowUs) ∨
        (tick.currentState ≠ (scheduled earlier).lastTelemetryState ∧
          publication = .robotState tick.currentState tick.nowUs) ∨
        (Due tick earlier .sensors ∧ publication = .sensors tick.sensors
          (tick.sensors.arraySensor.map fun (raw : UInt16) => (raw >>> 4).toUInt8) tick.nowUs) ∨
        (Due tick earlier .flags ∧ publication =
          .flags tick.flags.buttons tick.flags.sideSensors tick.flags.leds
            tick.flags.motorLeft.toInt8 tick.flags.motorRight.toInt8 tick.nowUs) := by
  unfold published sampleTelemetry Due
  simp only [List.mem_append, List.mem_ite_nil_right, List.mem_singleton, or_assoc]

private theorem publishes_iff (topic : Periodic) (tick : Tick Endpoint Seal)
    (earlier : List (Tick Endpoint Seal)) :
    Publishes topic tick earlier ↔ Due tick earlier topic := by
  constructor
  · rintro ⟨publication, member, own⟩
    obtain ⟨dueNow, rfl⟩ | ⟨dueNow, rfl⟩ | ⟨-, rfl⟩ | ⟨dueNow, rfl⟩ | ⟨dueNow, rfl⟩ :=
      mem_published.mp member <;> cases own <;> exact dueNow
  · intro dueNow
    cases topic with
    | protocolTest => exact ⟨_, mem_published.mpr (.inl ⟨dueNow, rfl⟩), rfl⟩
    | systemMonitor => exact ⟨_, mem_published.mpr (.inr (.inl ⟨dueNow, rfl⟩)), rfl⟩
    | sensors => exact ⟨_, mem_published.mpr (.inr (.inr (.inr (.inl ⟨dueNow, rfl⟩)))), rfl⟩
    | flags => exact ⟨_, mem_published.mpr (.inr (.inr (.inr (.inr ⟨dueNow, rfl⟩)))), rfl⟩

/-- A topic is due when its beat is. -/
theorem due_iff_paced (topic : Periodic) (tick : Tick Endpoint Seal)
    (earlier : List (Tick Endpoint Seal)) : Due tick earlier topic ↔
      (beatOf topic tick).due (nextAfter 0 (earlier.map (beatOf topic))) := by
  rw [← toNat_nextUs, ← due_iff_beat, Due]

private theorem fresh_map_iff (topic : Periodic) (now : Nat) (earlier : List (Tick Endpoint Seal)) :
    Fresh 0 now (earlier.map (beatOf topic)) ↔ ∃ since last before,
      earlier = since ++ last :: before ∧ (∀ other ∈ since, Wanted topic other) ∧
        Publishes topic last before ∧ now < last.nowUs.toNat + periodAt topic last := by
  constructor
  · rintro ⟨since, last, before, split, wanted, dueThen, early⟩
    obtain ⟨since, rest, rfl, rfl, mapped⟩ := List.map_eq_append_iff.mp split
    obtain ⟨last, before, rfl, rfl, rfl⟩ := List.map_eq_cons_iff.mp mapped
    refine ⟨since, last, before, rfl, fun other member => ?_, ?_, early⟩
    · exact of_decide_eq_true (wanted _ (List.mem_map_of_mem member))
    · rwa [publishes_iff, due_iff_paced]
  · rintro ⟨since, last, before, rfl, wanted, publishes, early⟩
    rw [publishes_iff, due_iff_paced] at publishes
    refine ⟨since.map (beatOf topic), beatOf topic last, before.map (beatOf topic), ?_, ?_,
      publishes, early⟩
    · rw [List.map_append, List.map_cons]
    · rw [List.forall_mem_map]
      exact fun other member => decide_eq_true (wanted other member)

private theorem counter_scheduled (earlier : List (Tick Endpoint Seal)) :
    (scheduled earlier).protocolTestCounter = UInt32.ofNat (testSamples earlier) := by
  induction earlier with
  | nil => rfl
  | cons tick earlier ih =>
    have counted : (scheduled (tick :: earlier)).protocolTestCounter =
        if Due tick earlier .protocolTest then (scheduled earlier).protocolTestCounter + 1
        else (scheduled earlier).protocolTestCounter := rfl
    rw [counted, testSamples, ih]
    by_cases dueNow : Due tick earlier .protocolTest
    · rw [if_pos dueNow, if_pos ((publishes_iff _ _ _).mpr dueNow), UInt32.ofNat_add]
      rfl
    · rw [if_neg dueNow, if_neg (mt (publishes_iff _ _ _).mp dueNow), Nat.add_zero]

private theorem state_scheduled (earlier : List (Tick Endpoint Seal)) :
    (scheduled earlier).lastTelemetryState = stateBefore earlier := by
  cases earlier <;> rfl

/-- The clock does not go back, and that is all that is asked of a run. At every tick a topic is
published exactly if it is wanted and, as long as it has been wanted ever since it was published,
at least a period of then has passed since; the test samples are numbered without a gap; and the
state is published exactly when it is another than at the tick before. -/
theorem samples_keep_their_schedule (tick : Tick Endpoint Seal)
    (earlier : List (Tick Endpoint Seal))
    (onward : (tick :: earlier).Pairwise fun later before => before.nowUs ≤ later.nowUs) :
    Sampled tick earlier where
  periodic topic := by
    have ordered : ((beatOf topic tick) :: earlier.map (beatOf topic)).Pairwise
        fun later beat => beat.now ≤ later.now := by
      rw [← List.map_cons, List.pairwise_map]
      exact onward.imp fun later => UInt64.le_iff_toNat_le.mp later
    rw [publishes_iff, due_iff_paced, due_iff ordered fun _ _ => Nat.zero_le _]
    refine and_congr decide_eq_true_iff ?_
    rw [fresh_map_iff]
    constructor
    · intro stale since last before split wanted publishes
      by_contra early
      exact stale ⟨since, last, before, split, wanted, publishes, not_le.mp early⟩
    · rintro waited ⟨since, last, before, split, wanted, publishes, early⟩
      exact absurd (waited since last before split wanted publishes) (not_le.mpr early)
  counted counter value nowUs member := by
    obtain ⟨-, same⟩ | ⟨-, same⟩ | ⟨-, same⟩ | ⟨-, same⟩ | ⟨-, same⟩ := mem_published.mp member <;>
      cases same
    exact ⟨counter_scheduled earlier, rfl⟩
  changed state nowUs := by
    rw [mem_published, state_scheduled]
    constructor
    · rintro (⟨-, same⟩ | ⟨-, same⟩ | ⟨other, same⟩ | ⟨-, same⟩ | ⟨-, same⟩) <;> cases same
      exact ⟨rfl, rfl, other⟩
    · rintro ⟨rfl, rfl, other⟩
      exact .inr (.inr (.inl ⟨other, rfl⟩))
  stamped publication member := by
    obtain ⟨-, rfl⟩ | ⟨-, rfl⟩ | ⟨-, rfl⟩ | ⟨-, rfl⟩ | ⟨-, rfl⟩ := mem_published.mp member <;> rfl

/-- A client on the serial line asks for ten test samples a second. -/
private def tickAt (nowUs : UInt32) : Tick Unit Unit where
  nowUs := nowUs.toUInt64
  signed := by
    have := nowUs.toNat_lt
    rw [UInt32.toNat_toUInt64]
    omega
  bindings := Bindings.none.bindSerialTarget () none ⟨fun _ => 1, fun _ => 10000⟩
  currentState := .wait
  report := []
  sensors := ⟨0, 0, 0, 0, 0, 0, 0, []⟩
  flags := ⟨0, 0, 0, 0, 0⟩

theorem samples_keep_to_ten_hertz :
    Sampled (tickAt 100000) [tickAt 60000, tickAt 0] ∧
      Publishes .protocolTest (tickAt 100000) [tickAt 60000, tickAt 0] ∧
      ¬Publishes .protocolTest (tickAt 60000) [tickAt 0] :=
  ⟨samples_keep_their_schedule _ _ (by decide +kernel), by decide +kernel, by decide +kernel⟩

end BallyOS.Telemetry
