import Mathlib.Algebra.GroupWithZero.Nat
import Mathlib.Order.Nat
import BallyOS.Library.Hull
import BallyOS.ArraySensor.Sensor

/-! What a calibration finds. The extremes are those of what was measured, as long as a read fails
only where the lowest value that there is was measured before: a failed read counts as that. -/
namespace BallyOS.ArraySensor
open Library

variable {len : Nat}

/-- What the reads of a channel that did not fail returned, the latest first. -/
def Sensor.values (sensor : Sensor len) (channel : Fin len) : List Nat :=
  sensor.readings.filterMap fun reading =>
    if reading.channel = channel then
      reading.outcome.map fun raw => (valueOf (some raw)).toNat
    else none

def Spread (values : List Nat) : Prop := ∃ low ∈ values, ∃ high ∈ values, low + 100 < high

/-- The extremes are those of what was measured, and a failed read changed neither. -/
structure Measured (sensor : Sensor len) : Prop where
  hull : ∀ channel, Hull 4095 0 (sensor.values channel) (sensor.min channel).toNat
    (sensor.max channel).toNat
  kept : ∀ reading ∈ sensor.readings, reading.outcome = none → reading.after = reading.before

/-- The call leaves what was measured, and says of it whether every channel's spread is enough. -/
def Calibrates (adc : Adc) (sensor : Sensor len) (nSamples : UInt8) : Prop :=
  Measured (sensor.calibrate adc nSamples).2 ∧
    ((sensor.calibrate adc nSamples).1 = true ↔
      ∀ channel, Spread ((sensor.calibrate adc nSamples).2.values channel))

/-- What comes of the reads, one after the other over all calls. -/
def heard (adc : Adc) (ready : Bool) (index : Nat) : Outcome := if ready then adc index else none

/-- Of so many reads, channel by channel, one fails only after the same channel has read full
scale, of which the value is zero. -/
def ZeroFirst (adc : Adc) (ready : Bool) (len reads : Nat) : Prop :=
  ∀ index < reads, heard adc ready index = none →
    ∃ earlier < index, earlier % len = index % len ∧ heard adc ready earlier = some 4095

private theorem zeroFirst_succ {adc : Adc} {ready : Bool} {reads : Nat} :
    ZeroFirst adc ready len (reads + 1) ↔ ZeroFirst adc ready len reads ∧
      (heard adc ready reads = none →
        ∃ earlier < reads, earlier % len = reads % len ∧ heard adc ready earlier = some 4095) := by
  constructor
  · exact fun first => ⟨fun index within => first index (Nat.lt_succ_of_lt within),
      first reads (Nat.lt_succ_self reads)⟩
  · rintro ⟨first, last⟩ index within failed
    rcases Nat.lt_succ_iff_lt_or_eq.mp within with older | rfl
    · exact first index older failed
    · exact last failed

private theorem zeroFirst_mono {adc : Adc} {ready : Bool} {fewer reads : Nat}
    (first : ZeroFirst adc ready len reads) (less : fewer ≤ reads) :
    ZeroFirst adc ready len fewer :=
  fun index within => first index (Nat.lt_of_lt_of_le within less)

private theorem valueOf_le (outcome : Outcome) : (valueOf outcome).toNat ≤ 4095 := by
  cases outcome with
  | none => simp [valueOf]
  | some raw =>
    simp only [valueOf, UInt16.toNat_ofNat']
    omega

private theorem valueOf_eq_zero_iff (raw : Fin 4096) : (valueOf (some raw)).toNat = 0 ↔ raw = 4095
    := by
  simp only [valueOf, UInt16.toNat_ofNat', Fin.ext_iff]
  omega

/-- The sensor after so many reads: they went over the channels in turn, what the extremes are as
long as the failed reads kept them, and when they did. -/
structure Sampled (adc : Adc) (ready : Bool) (sensor : Sensor len) (reads : Nat) : Prop where
  same : sensor.ready = ready
  taken : ready = true → sensor.taken = reads
  turns : ∀ channel outcome,
    (∃ reading ∈ sensor.readings, reading.channel = channel ∧ reading.outcome = outcome) ↔
      ∃ index < reads, index % len = channel ∧ heard adc ready index = outcome
  hull : (∀ reading ∈ sensor.readings, reading.outcome = none → reading.after = reading.before) →
    ∀ channel, Hull 4095 0 (sensor.values channel) (sensor.min channel).toNat
      (sensor.max channel).toNat
  kept_iff : (∀ reading ∈ sensor.readings, reading.outcome = none →
      reading.after = reading.before) ↔ ZeroFirst adc ready len reads

private theorem sampled_create (adc : Adc) (len : UInt8) (ready : Bool) :
    Sampled adc ready (Sensor.create len ready) 0 where
  same := rfl
  taken _ := rfl
  turns := by simp [Sensor.create]
  hull _ _ := hull_nil 4095 0
  kept_iff := by simp [Sensor.create, ZeroFirst]

/-- A channel has measured zero exactly when a read of it was full scale. -/
theorem zero_mem_values_iff {adc : Adc} {ready : Bool} {sensor : Sensor len} {reads : Nat}
    (sampled : Sampled adc ready sensor reads) (channel : Fin len) :
    0 ∈ sensor.values channel ↔ ∃ earlier < reads, earlier % len = channel ∧
      heard adc ready earlier = some 4095 := by
  rw [← sampled.turns channel (some 4095), Sensor.values, List.mem_filterMap]
  refine exists_congr fun reading => and_congr_right fun _ => ?_
  by_cases same : reading.channel = channel
  · cases reading.outcome with
    | none => simp
    | some raw => simp [same, valueOf_eq_zero_iff]
  · simp [same]

private theorem outcome_eq {adc : Adc} {ready : Bool} {sensor : Sensor len} {reads : Nat}
    (sampled : Sampled adc ready sensor reads) (channel : Fin len) :
    (sensor.outcome adc channel).1 = heard adc ready reads ∧
      (sensor.outcome adc channel).2.ready = ready ∧
      (ready = true → (sensor.outcome adc channel).2.taken = reads + 1) := by
  have within : ¬len ≤ channel.val := Nat.not_le.mpr channel.isLt
  have same := sampled.same
  cases ready with
  | false => simp [Sensor.outcome, heard, same]
  | true => simp [Sensor.outcome, heard, same, sampled.taken rfl, within]

/-! ### What one read does -/

section Measure
variable (adc : Adc) (sensor : Sensor len) (channel : Fin len)

private theorem measure_min : (sensor.measure adc channel).min = Function.update sensor.min channel
    (if valueOf (sensor.outcome adc channel).1 < sensor.min channel then
      valueOf (sensor.outcome adc channel).1 else sensor.min channel) := rfl

private theorem measure_max : (sensor.measure adc channel).max = Function.update sensor.max channel
    (if valueOf (sensor.outcome adc channel).1 > sensor.max channel then
      valueOf (sensor.outcome adc channel).1 else sensor.max channel) := rfl

private theorem measure_readings : (sensor.measure adc channel).readings =
    ⟨channel, (sensor.outcome adc channel).1, (sensor.min channel, sensor.max channel),
      ((sensor.measure adc channel).min channel, (sensor.measure adc channel).max channel)⟩ ::
      sensor.readings := by
  rw [measure_min, measure_max, Function.update_self, Function.update_self]
  rfl

end Measure

private theorem values_measure_of_none {adc : Adc} {sensor : Sensor len} {channel : Fin len}
    (failed : (sensor.outcome adc channel).1 = none) (other : Fin len) :
    (sensor.measure adc channel).values other = sensor.values other := by
  rw [Sensor.values, measure_readings, failed]
  simp [Sensor.values]

private theorem values_measure_of_some {adc : Adc} {sensor : Sensor len} {channel : Fin len}
    {raw : Fin 4096} (counted : (sensor.outcome adc channel).1 = some raw) (other : Fin len) :
    (sensor.measure adc channel).values other =
      if channel = other then (valueOf (some raw)).toNat :: sensor.values other
      else sensor.values other := by
  rw [Sensor.values, measure_readings, counted]
  by_cases same : channel = other
  · simp [Sensor.values, same]
  · simp [Sensor.values, same]

/-- A failed read keeps the extremes exactly when the lower one is zero. -/
theorem failed_keeps_iff {adc : Adc} {sensor : Sensor len} {channel : Fin len}
    (failed : (sensor.outcome adc channel).1 = none) :
    ((sensor.measure adc channel).min channel, (sensor.measure adc channel).max channel) =
      (sensor.min channel, sensor.max channel) ↔ (sensor.min channel).toNat = 0 := by
  have never : ¬(0 : UInt16) > sensor.max channel := by
    simp [UInt16.lt_iff_toNat_lt]
  have zero : valueOf none = 0 := rfl
  rw [measure_min, measure_max, Function.update_self, Function.update_self, failed, zero,
    if_neg never, Prod.mk.injEq, and_iff_left rfl]
  by_cases positive : 0 < sensor.min channel
  · rw [if_pos positive, ← UInt16.toNat_inj]
    exact eq_comm
  · rw [if_neg positive]
    rw [UInt16.lt_iff_toNat_lt] at positive
    simpa using positive

private theorem toNat_ite {condition : Prop} [Decidable condition] (first second : UInt16) :
    (if condition then first else second).toNat =
      if condition then first.toNat else second.toNat := by
  split <;> rfl

private theorem hull_measure {adc : Adc} {sensor : Sensor len} {channel : Fin len}
    (hull : ∀ other, Hull 4095 0 (sensor.values other) (sensor.min other).toNat
      (sensor.max other).toNat)
    (kept : (sensor.outcome adc channel).1 = none →
      ((sensor.measure adc channel).min channel, (sensor.measure adc channel).max channel) =
        (sensor.min channel, sensor.max channel)) (other : Fin len) :
    Hull 4095 0 ((sensor.measure adc channel).values other)
      ((sensor.measure adc channel).min other).toNat
      ((sensor.measure adc channel).max other).toNat := by
  by_cases same : other = channel
  · subst same
    cases counted : (sensor.outcome adc other).1 with
    | none =>
      obtain ⟨low, high⟩ := Prod.mk.inj (kept counted)
      rw [values_measure_of_none counted, low, high]
      exact hull other
    | some raw =>
      rw [values_measure_of_some counted, if_pos rfl, measure_min, measure_max,
        Function.update_self, Function.update_self, counted, toNat_ite, toNat_ite]
      simp only [gt_iff_lt, UInt16.lt_iff_toNat_lt]
      exact hull_cons (hull other) (valueOf_le (some raw)) (Nat.zero_le _)
  · have unread : (sensor.measure adc channel).values other = sensor.values other := by
      cases counted : (sensor.outcome adc channel).1 with
      | none => exact values_measure_of_none counted other
      | some raw => rw [values_measure_of_some counted, if_neg (Ne.symm same)]
    rw [unread, measure_min, measure_max, Function.update_of_ne same, Function.update_of_ne same]
    exact hull other

private theorem sampled_measure {adc : Adc} {ready : Bool} {sensor : Sensor len} {reads : Nat}
    {channel : Fin len} (sampled : Sampled adc ready sensor reads) (turn : reads % len = channel) :
    Sampled adc ready (sensor.measure adc channel) (reads + 1) := by
  obtain ⟨came, same, taken⟩ := outcome_eq sampled channel
  refine ⟨same, taken, ?_, ?_, ?_⟩
  · intro other outcome
    rw [measure_readings, came]
    simp only [List.exists_mem_cons_iff, sampled.turns, Nat.exists_lt_succ_right]
    rw [or_comm, turn, Fin.ext_iff]
  · rw [measure_readings, List.forall_mem_cons]
    rintro ⟨last, kept⟩
    exact hull_measure (sampled.hull kept) last
  · rw [measure_readings, List.forall_mem_cons, zeroFirst_succ, and_comm, ← sampled.kept_iff]
    refine and_congr_right fun kept => ?_
    dsimp only
    rw [came]
    refine imp_congr_right fun failed => ?_
    rw [failed_keeps_iff (came.trans failed), hull_low_eq_bottom_iff (sampled.hull kept channel)
      (by decide) fun _ _ => Nat.zero_le _, zero_mem_values_iff sampled, turn]

/-! ### What a call and a sequence of calls do -/

theorem finRange_order (len : Nat) : (List.finRange len).map Fin.val =
    List.range' 0 (List.finRange len).length := by
  rw [List.length_finRange, ← List.range_eq_range']
  exact List.map_coe_finRange_eq_range

/-- The rest of a sample, from a channel on. -/
theorem sampled_foldl {adc : Adc} {ready : Bool} (channels : List (Fin len))
    {sensor : Sensor len} {sweeps first : Nat}
    (order : channels.map Fin.val = List.range' first channels.length)
    (sampled : Sampled adc ready sensor (len * sweeps + first)) :
    Sampled adc ready (channels.foldl (Sensor.measure adc) sensor)
      (len * sweeps + (first + channels.length)) := by
  induction channels generalizing sensor first with
  | nil => exact sampled
  | cons channel rest ih =>
    obtain ⟨here, after⟩ : channel.val = first ∧
        rest.map Fin.val = List.range' (first + 1) rest.length := by
      simpa [List.range'_succ] using order
    have turn : (len * sweeps + first) % len = channel := by
      rw [Nat.mul_add_mod, ← here, Nat.mod_eq_of_lt channel.isLt]
    have rested := ih after (sampled_measure sampled turn)
    rw [List.length_cons, Nat.add_comm rest.length, ← Nat.add_assoc first]
    exact rested

private theorem sampled_sweep {adc : Adc} {ready : Bool} {sensor : Sensor len} {sweeps : Nat}
    (sampled : Sampled adc ready sensor (len * sweeps)) :
    Sampled adc ready (sensor.sweep adc) (len * (sweeps + 1)) := by
  have swept := sampled_foldl (List.finRange len) (finRange_order len) sampled
  rw [List.length_finRange, Nat.zero_add] at swept
  exact swept

private theorem sampled_iterate {adc : Adc} {ready : Bool} {sensor : Sensor len} {sweeps : Nat}
    (sampled : Sampled adc ready sensor (len * sweeps)) (count : Nat) :
    Sampled adc ready ((Sensor.sweep adc)^[count] sensor) (len * (sweeps + count)) := by
  induction count with
  | zero => exact sampled
  | succ count ih =>
    rw [Function.iterate_succ_apply']
    exact sampled_sweep ih

private theorem sampled_calibrations {adc : Adc} {ready : Bool} (calls : List UInt8)
    {sensor : Sensor len} {sweeps : Nat} (sampled : Sampled adc ready sensor (len * sweeps)) :
    Sampled adc ready (sensor.calibrations adc calls)
      (len * (sweeps + (calls.map UInt8.toNat).sum)) := by
  induction calls generalizing sensor sweeps with
  | nil => exact sampled
  | cons nSamples rest ih =>
    have called := ih (sampled_iterate sampled nSamples.toNat)
    rw [List.map_cons, List.sum_cons, ← Nat.add_assoc]
    exact called

/-- The check of the extremes is a check of what was measured, as long as they are that. -/
theorem calibrationOk_iff {sensor : Sensor len} (measured : Measured sensor) :
    sensor.calibrationOk = true ↔ ∀ channel, Spread (sensor.values channel) := by
  rw [Sensor.calibrationOk, decide_eq_true_iff]
  refine forall_congr' fun channel => ?_
  have hull := measured.hull channel
  constructor
  · intro far
    by_cases none : sensor.values channel = []
    · obtain ⟨low, high⟩ := hull.nothing none
      omega
    · obtain ⟨least, greatest, -⟩ := hull.something none
      exact ⟨_, least, _, greatest, by omega⟩
  · rintro ⟨low, seen, high, also, far⟩
    obtain ⟨-, -, between⟩ := hull.something (List.ne_nil_of_mem seen)
    have := between low seen
    have := between high also
    omega

private theorem measured_of_zeroFirst {adc : Adc} {ready : Bool} {sensor : Sensor len} {reads : Nat}
    (sampled : Sampled adc ready sensor reads) (first : ZeroFirst adc ready len reads) :
    Measured sensor :=
  ⟨sampled.hull (sampled.kept_iff.mpr first), sampled.kept_iff.mpr first⟩

private theorem calibrates_iff_measured {adc : Adc} {sensor : Sensor len} {nSamples : UInt8} :
    Calibrates adc sensor nSamples ↔ Measured (sensor.calibrate adc nSamples).2 :=
  ⟨And.left, fun measured => ⟨measured, calibrationOk_iff measured⟩⟩

private theorem calibrations_concat (adc : Adc) (sensor : Sensor len) (calls : List UInt8)
    (nSamples : UInt8) : sensor.calibrations adc (calls ++ [nSamples]) =
      ((sensor.calibrations adc calls).calibrate adc nSamples).2 :=
  List.foldl_concat ..

/-- Whatever the calls and whatever the ADC answers: every call of a sequence calibrates exactly
when no read fails but after a full-scale read of the same channel. -/
theorem calibrates_iff (adc : Adc) (len : UInt8) (ready : Bool) (calls : List UInt8) :
    (∀ before nSamples after, calls = before ++ nSamples :: after →
      Calibrates adc ((Sensor.create len ready).calibrations adc before) nSamples) ↔
    ZeroFirst adc ready (clampLen len) (clampLen len * (calls.map UInt8.toNat).sum) := by
  have reached : ∀ calls, Sampled adc ready ((Sensor.create len ready).calibrations adc calls)
      (clampLen len * (calls.map UInt8.toNat).sum) := fun calls => by
    have start : Sampled adc ready (Sensor.create len ready) (clampLen len * 0) :=
      sampled_create adc len ready
    simpa using sampled_calibrations calls start
  constructor
  · intro calibrates
    rcases List.eq_nil_or_concat calls with rfl | ⟨before, nSamples, rfl⟩
    · simp [ZeroFirst]
    · rw [List.concat_eq_append] at calibrates ⊢
      have measured := (calibrates before nSamples [] rfl).1
      rw [← calibrations_concat] at measured
      exact (reached _).kept_iff.mp measured.kept
  · rintro first before nSamples after rfl
    rw [calibrates_iff_measured, ← calibrations_concat]
    refine measured_of_zeroFirst (reached _) (zeroFirst_mono first (Nat.mul_le_mul_left _ ?_))
    simp only [List.map_append, List.sum_append, List.map_cons, List.sum_cons, List.map_nil,
      List.sum_nil]
    omega

/-- One channel, read twice: four thousand, and then nothing. -/
def failsAfter : Adc
  | 0 => some 95
  | _ => none

theorem one_fault_passes : ¬ ∀ (adc : Adc) (len : UInt8) (ready : Bool) (calls : List UInt8),
    ∀ before nSamples after, calls = before ++ nSamples :: after →
      Calibrates adc ((Sensor.create len ready).calibrations adc before) nSamples := by
  intro calibrates
  have called := (calibrates failsAfter 1 true [2] [] 2 [] rfl).2.mp (by decide) ⟨0, by decide⟩
  obtain ⟨low, seen, high, also, far⟩ := called
  have values : (((Sensor.create 1 true).calibrations failsAfter []).calibrate failsAfter
      2).2.values ⟨0, by decide⟩ = [4000] := by decide
  rw [values, List.mem_singleton] at seen also
  omega

end BallyOS.ArraySensor
