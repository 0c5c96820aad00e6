import Mathlib.Algebra.BigOperators.Fin
import Mathlib.Algebra.Order.Ring.Rat
import Mathlib.Analysis.Convex.Combination
import Mathlib.Tactic.Linarith
import BallyOS.Library.Run
import BallyOS.ArraySensor.Calibration

/-! Where the line is. A pass reads every channel and takes the mean of the channels, weighted by
what was read there; while it sees no line, it answers with the end on the side of the last one. -/
namespace BallyOS.ArraySensor
open Library

variable {len : Nat}

def Sensor.normalize (sensor : Sensor len) (value : UInt16) (index : Fin len) : Int16 :=
  let range := (sensor.max index).toUInt32.toInt32 - (sensor.min index).toUInt32.toInt32
  if range ≤ 0 then 0
  else
    let norm :=
      (value.toUInt32.toInt32 - (sensor.min index).toUInt32.toInt32) * 1000 / range
    if norm < 0 then 0 else if norm > 1000 then 1000 else norm.toInt16

/-- What the loop of a pass adds up. -/
structure Sums where
  value : UInt32 := 0
  measure : UInt32 := 0
  line : Bool := false
deriving Repr, DecidableEq

/-- The body of the loop. -/
def Sensor.add (adc : Adc) (state : Sensor len × Sums) (i : Fin len) : Sensor len × Sums :=
  let (raw, after) := state.1.read adc i
  let val := (after.normalize raw i).toUInt16
  (after,
    { value := state.2.value +
        (val.toUInt32.toInt32 * (Int32.ofNat i + 1) * 1000).toUInt32
      measure := state.2.measure + val.toUInt32
      line := state.2.line || decide (val.toNat > len * 100) })

def Sensor.sums (adc : Adc) (sensor : Sensor len) : Sensor len × Sums :=
  (List.finRange len).foldl (Sensor.add adc) (sensor, {})

/-- The sensor with the position that it keeps. `lastSeen` is the position that the last pass to
see the line computed, which nobody keeps. -/
structure Tracker (len : Nat) where
  sensor : Sensor len
  lastPosition : ℚ := 0
  lastSeen : Option ℚ := none

def Tracker.getLinePosition (adc : Adc) (tracker : Tracker len) : ℚ × Tracker len :=
  let (sensor, sums) := tracker.sensor.sums adc
  if sums.line && decide (sums.measure > 0) then
    let position := (sums.value.toNat : ℚ) / sums.measure.toNat
    (position, ⟨sensor, position, some position⟩)
  else
    let position : ℚ :=
      if tracker.lastPosition < (len * 1000 / 2 : Nat) then 1000 else (len * 1000 : Nat)
    (position, ⟨sensor, position, tracker.lastSeen⟩)

inductive Event
  | position
  | calibrate (nSamples : UInt8)
deriving Repr, DecidableEq

def Tracker.step (adc : Adc) : Machine (Tracker len) Event
  | tracker, .position => some (tracker.getLinePosition adc).2
  | tracker, .calibrate nSamples =>
    some { tracker with sensor := (tracker.sensor.calibrate adc nSamples).2 }

/-! ### What a pass is to say -/

/-- How far a value is from the lower to the higher extreme, in thousandths. -/
def permille (value low high : Nat) : Nat := min 1000 ((value - low) * 1000 / (high - low))

/-- What the next pass makes of a channel. -/
def Sensor.level (adc : Adc) (sensor : Sensor len) (i : Fin len) : Nat :=
  permille (valueOf (heard adc sensor.ready (sensor.taken + i))).toNat (sensor.min i).toNat
    (sensor.max i).toNat

/-- The next pass sees the line. -/
def Sensor.Sees (adc : Adc) (sensor : Sensor len) : Prop := ∃ i, len * 100 < sensor.level adc i

/-- The sums are those over the integers without bound. -/
structure Exact (adc : Adc) (sensor : Sensor len) : Prop where
  value : (sensor.sums adc).2.value.toNat = ∑ i, sensor.level adc i * (i + 1) * 1000
  measure : (sensor.sums adc).2.measure.toNat = ∑ i, sensor.level adc i

/-- An end of the array, and the one on the side of the array's centre where the line was. -/
structure SideOf (len : Nat) (seen : Option ℚ) (position : ℚ) : Prop where
  anEnd : position = 1000 ∨ position = len * 1000
  first : ∀ last ∈ seen, last < (len + 1) * 500 → position = 1000
  second : ∀ last ∈ seen, (len + 1) * 500 < last → position = len * 1000

/-- What is to hold of a pass. -/
structure Located (adc : Adc) (tracker : Tracker len) : Prop where
  exact : Exact adc tracker.sensor
  within : tracker.sensor.Sees adc →
    1000 ≤ (tracker.getLinePosition adc).1 ∧ (tracker.getLinePosition adc).1 ≤ len * 1000
  side : ¬tracker.sensor.Sees adc →
    SideOf len tracker.lastSeen (tracker.getLinePosition adc).1

def Locates (adc : Adc) (tracker : Tracker len) : Event → Prop
  | .position => Located adc tracker
  | .calibrate _ => True

/-- The line was last seen between half the last channel's position and the array's centre, which
is half a channel further on. -/
def Tracker.Astray (tracker : Tracker len) : Prop :=
  ∃ last ∈ tracker.lastSeen, (len * 500 : ℚ) ≤ last ∧ last < (len + 1) * 500

/-- No pass without the line comes while it was last seen there. -/
def Sided (adc : Adc) (tracker : Tracker len) : Event → Prop
  | .position => tracker.Astray → tracker.sensor.Sees adc
  | .calibrate _ => True

/-! ### The machine integers -/

private theorem toInt_word (word : UInt16) : word.toUInt32.toInt32.toInt = word.toNat := by
  have small := word.toNat_lt
  have signed : word.toUInt32.toInt32.toInt = Int.bmod word.toNat (2 ^ 32) :=
    BitVec.toInt_eq_toNat_bmod word.toUInt32.toBitVec
  rw [signed]
  exact Int.bmod_eq_of_le (by omega) (by omega)

private theorem toInt_sub_word (first second : UInt16) :
    (first.toUInt32.toInt32 - second.toUInt32.toInt32).toInt = first.toNat - second.toNat := by
  have := first.toNat_lt
  have := second.toNat_lt
  rw [Int32.toInt_sub, toInt_word, toInt_word]
  exact Int.bmod_eq_of_le (by omega) (by omega)

private theorem toInt_thousandth (value low high : UInt16) (positive : low.toNat < high.toNat) :
    ((value.toUInt32.toInt32 - low.toUInt32.toInt32) * 1000 /
      (high.toUInt32.toInt32 - low.toUInt32.toInt32)).toInt =
      (((value.toNat : Int) - low.toNat) * 1000).tdiv (high.toNat - low.toNat) := by
  have := value.toNat_lt
  have := low.toNat_lt
  have thousand : (1000 : Int32).toInt = 1000 := rfl
  have product : ((value.toUInt32.toInt32 - low.toUInt32.toInt32) * 1000).toInt =
      ((value.toNat : Int) - low.toNat) * 1000 := by
    rw [Int32.toInt_mul, toInt_sub_word, thousand]
    exact Int.bmod_eq_of_le (by omega) (by omega)
  rw [Int32.toInt_div_of_ne_right, product, toInt_sub_word]
  intro minus
  have := congrArg Int32.toInt minus
  rw [toInt_sub_word] at this
  have one : (-1 : Int32).toInt = -1 := rfl
  omega

/-- The quotient of C, which is negative below the lower extreme, against that of the naturals,
which is zero there. -/
theorem toNat_tdiv_thousandth (value low high : Nat) (positive : low < high) :
    ((((value : Int) - low) * 1000).tdiv (high - low)).toNat =
      (value - low) * 1000 / (high - low) := by
  have range : ((high - low : Nat) : Int) = high - low := by omega
  rcases Nat.le_total low value with above | below
  · have height : ((value : Int) - low) * 1000 = ((value - low) * 1000 : Nat) := by omega
    rw [height, ← range, ← Int.ofNat_tdiv, Int.toNat_natCast]
  · have depth : ((value : Int) - low) * 1000 = -((low - value) * 1000 : Nat) := by omega
    have nothing : value - low = 0 := by omega
    rw [depth, ← range, Int.neg_tdiv, ← Int.ofNat_tdiv, Int.toNat_neg_natCast, nothing,
      Nat.zero_mul, Nat.zero_div]

private theorem toNat_clamp (norm : Int32) :
    (if norm < 0 then 0 else if norm > 1000 then 1000 else norm.toInt16).toUInt16.toNat =
      min 1000 norm.toInt.toNat := by
  have zero : (0 : Int32).toInt = 0 := rfl
  have thousand : (1000 : Int32).toInt = 1000 := rfl
  simp only [gt_iff_lt, Int32.lt_iff_toInt_lt, zero, thousand]
  split
  · have : (0 : Int16).toUInt16.toNat = 0 := rfl
    omega
  · split
    · have : (1000 : Int16).toUInt16.toNat = 1000 := rfl
      omega
    · have same : norm.toInt16.toInt = norm.toInt := by
        rw [Int32.toInt_toInt16]
        exact Int.bmod_eq_of_le (by omega) (by omega)
      have positive : (0 : Int16) ≤ norm.toInt16 := by
        rw [Int16.le_iff_toInt_le, same]
        exact Int.not_lt.mp ‹_›
      have kept : norm.toInt16.toUInt16.toNat = norm.toInt.toNat := by
        rw [Int16.toNat_toUInt16_of_le positive, Int16.toNatClampNeg, same]
      omega

/-- The machine integers of `normalize` are wide enough. -/
theorem toNat_normalize (sensor : Sensor len) (value : UInt16) (index : Fin len) :
    (sensor.normalize value index).toUInt16.toNat =
      permille value.toNat (sensor.min index).toNat (sensor.max index).toNat := by
  have zero : (0 : Int32).toInt = 0 := rfl
  simp only [Sensor.normalize, permille, Int32.le_iff_toInt_le, toInt_sub_word, zero]
  by_cases none : ((sensor.max index).toNat : Int) - (sensor.min index).toNat ≤ 0
  · have empty : (sensor.max index).toNat - (sensor.min index).toNat = 0 := by omega
    rw [if_pos none, empty, Nat.div_zero]
    rfl
  · have positive : (sensor.min index).toNat < (sensor.max index).toNat := by omega
    rw [if_neg none, toNat_clamp, toInt_thousandth value _ _ positive,
      toNat_tdiv_thousandth _ _ _ positive]

private theorem permille_le (value low high : Nat) : permille value low high ≤ 1000 :=
    Nat.min_le_left ..

/-- What one channel adds to the weighted sum fits in the signed integer that it is computed in. -/
theorem toNat_weighted {val : UInt16} {i : Nat} (level : val.toNat ≤ 1000) (channel : i < 8) :
    (val.toUInt32.toInt32 * (Int32.ofNat i + 1) * 1000).toUInt32.toNat =
      val.toNat * (i + 1) * 1000 := by
  have one : (1 : Int32).toInt = 1 := rfl
  have thousand : (1000 : Int32).toInt = 1000 := rfl
  have place : (Int32.ofNat i + 1).toInt = ((i + 1 : Nat) : Int) := by
    rw [Int32.toInt_add, Int32.toInt_ofNat_of_lt (by omega), one]
    exact Int.bmod_eq_of_le (by omega) (by omega)
  have small : val.toNat * (i + 1) ≤ 1000 * 8 := Nat.mul_le_mul level channel
  have moment : (val.toUInt32.toInt32 * (Int32.ofNat i + 1)).toInt =
      ((val.toNat * (i + 1) : Nat) : Int) := by
    rw [Int32.toInt_mul, toInt_word, place, ← Int.natCast_mul]
    exact Int.bmod_eq_of_le (by omega) (by omega)
  have weighted : (val.toUInt32.toInt32 * (Int32.ofNat i + 1) * 1000).toInt =
      ((val.toNat * (i + 1) * 1000 : Nat) : Int) := by
    rw [Int32.toInt_mul, moment, thousand]
    exact Int.bmod_eq_of_le (by omega) (by omega)
  have positive : (0 : Int32) ≤ val.toUInt32.toInt32 * (Int32.ofNat i + 1) * 1000 := by
    rw [Int32.le_iff_toInt_le, weighted]
    exact Int.natCast_nonneg _
  rw [Int32.toNat_toUInt32_of_le positive, Int32.toNatClampNeg, weighted, Int.toNat_natCast]

/-! ### What a pass adds up -/

/-- A pass that has come through some channels, the first ones in their order. -/
structure Summed (adc : Adc) (sensor : Sensor len) (channels : List (Fin len))
    (state : Sensor len × Sums) : Prop where
  ready : state.1.ready = sensor.ready
  taken : sensor.ready = true → state.1.taken = sensor.taken + channels.length
  min : state.1.min = sensor.min
  max : state.1.max = sensor.max
  value : state.2.value.toNat = (channels.map fun i => sensor.level adc i * (i + 1) * 1000).sum
  measure : state.2.measure.toNat = (channels.map (sensor.level adc)).sum
  line : state.2.line = true ↔ ∃ i ∈ channels, len * 100 < sensor.level adc i

private theorem level_le (adc : Adc) (sensor : Sensor len) (i : Fin len) : sensor.level adc i ≤ 1000
    :=
  permille_le ..

private theorem summed_nil (adc : Adc) (sensor : Sensor len) : Summed adc sensor [] (sensor, {})
    where
  ready := rfl
  taken _ := rfl
  min := rfl
  max := rfl
  value := rfl
  measure := rfl
  line := by simp

/-- The next channel is read with the next answer of the ADC, and the extremes stay. -/
theorem read_summed {adc : Adc} {sensor : Sensor len} {channels : List (Fin len)}
    {state : Sensor len × Sums} (summed : Summed adc sensor channels state) {i : Fin len}
    (turn : i.val = channels.length) :
    (state.1.read adc i).1 = valueOf (heard adc sensor.ready (sensor.taken + i)) ∧
      (state.1.read adc i).2.ready = sensor.ready ∧
      (sensor.ready = true → (state.1.read adc i).2.taken = sensor.taken + channels.length + 1) ∧
      (state.1.read adc i).2.min = sensor.min ∧ (state.1.read adc i).2.max = sensor.max := by
  have within : ¬len ≤ i.val := Nat.not_le.mpr i.isLt
  obtain ⟨low, high⟩ := And.intro summed.min summed.max
  cases answers : sensor.ready with
  | false => simp [Sensor.read, Sensor.outcome, heard, summed.ready, answers, low, high]
  | true =>
    simp [Sensor.read, Sensor.outcome, heard, summed.ready, answers, low, high, ← turn, within,
      summed.taken answers]

private theorem sum_map_le {f : Fin len → Nat} {bound : Nat} (below : ∀ i, f i ≤ bound)
    (channels : List (Fin len)) : (channels.map f).sum ≤ channels.length * bound := by
  have most := List.sum_le_card_nsmul (channels.map f) bound fun x member => by
    obtain ⟨i, -, rfl⟩ := List.mem_map.mp member
    exact below i
  rwa [List.length_map, smul_eq_mul] at most

/-- Adding to a sum does not wrap when there is room for both. -/
theorem toNat_add_of_lt {sum more : UInt32} (fits : sum.toNat + more.toNat < 2 ^ 32) :
    (sum + more).toNat = sum.toNat + more.toNat := by
  rw [UInt32.toNat_add, Nat.mod_eq_of_lt fits]

private theorem weighted_le (adc : Adc) (sensor : Sensor len) (few : len ≤ 8) (i : Fin len) :
    sensor.level adc i * (i + 1) * 1000 ≤ 1000 * 8 * 1000 :=
  Nat.mul_le_mul_right _ (Nat.mul_le_mul (level_le adc sensor i) (Nat.lt_of_lt_of_le i.isLt few))

private theorem summed_add {adc : Adc} {sensor : Sensor len} {channels : List (Fin len)}
    {state : Sensor len × Sums} (summed : Summed adc sensor channels state) (few : len ≤ 8)
    {i : Fin len} (turn : i.val = channels.length) :
    Summed adc sensor (channels ++ [i]) (Sensor.add adc state i) := by
  obtain ⟨value, ready, taken, low, high⟩ := read_summed summed turn
  have level : ((state.1.read adc i).2.normalize (state.1.read adc i).1 i).toUInt16.toNat =
      sensor.level adc i := by
    rw [toNat_normalize, value, low, high]
    rfl
  have small := level_le adc sensor i
  have channel : i.val < 8 := Nat.lt_of_lt_of_le i.isLt few
  have weighted := toNat_weighted (level.trans_le small) channel
  have moments := sum_map_le (weighted_le adc sensor few) channels
  have measures := sum_map_le (level_le adc sensor) channels
  have moment := weighted_le adc sensor few i
  rw [level] at weighted
  have value_fits : state.2.value.toNat + (((state.1.read adc i).2.normalize (state.1.read adc i).1
      i).toUInt16.toUInt32.toInt32 * (Int32.ofNat i + 1) * 1000).toUInt32.toNat < 2 ^ 32 := by
    rw [weighted, summed.value]
    omega
  have measure_fits : state.2.measure.toNat + ((state.1.read adc i).2.normalize
      (state.1.read adc i).1 i).toUInt16.toUInt32.toNat < 2 ^ 32 := by
    rw [UInt16.toNat_toUInt32, level, summed.measure]
    omega
  refine ⟨ready, ?_, low, high, ?_, ?_, ?_⟩
  · rw [List.length_append, List.length_singleton, ← Nat.add_assoc]
    exact taken
  · rw [List.map_append, List.sum_append, ← summed.value, List.map_singleton, List.sum_singleton,
      ← weighted]
    exact toNat_add_of_lt value_fits
  · rw [List.map_append, List.sum_append, ← summed.measure, List.map_singleton,
      List.sum_singleton, ← level, ← UInt16.toNat_toUInt32]
    exact toNat_add_of_lt measure_fits
  · simp [Sensor.add, level, summed.line, or_and_right, exists_or]

/-- The rest of a pass, from a channel on. -/
theorem summed_foldl {adc : Adc} {sensor : Sensor len} (few : len ≤ 8) (rest : List (Fin len))
    {channels : List (Fin len)} {state : Sensor len × Sums}
    (order : rest.map Fin.val = List.range' channels.length rest.length)
    (summed : Summed adc sensor channels state) :
    Summed adc sensor (channels ++ rest) (rest.foldl (Sensor.add adc) state) := by
  induction rest generalizing channels state with
  | nil => simpa using summed
  | cons i rest ih =>
    obtain ⟨here, after⟩ : i.val = channels.length ∧
        rest.map Fin.val = List.range' (channels.length + 1) rest.length := by
      simpa [List.range'_succ] using order
    have later : rest.map Fin.val = List.range' (channels ++ [i]).length rest.length := by
      rwa [List.length_append, List.length_singleton]
    have rested := ih later (summed_add summed few here)
    rwa [List.append_assoc] at rested

private theorem summed_sums (adc : Adc) (sensor : Sensor len) (few : len ≤ 8) :
    Summed adc sensor (List.finRange len) (sensor.sums adc) := by
  have swept := @summed_foldl _ adc sensor few (List.finRange len) [] (sensor, {})
    (finRange_order len) (summed_nil adc sensor)
  rwa [List.nil_append] at swept

private theorem exact_sums (adc : Adc) (sensor : Sensor len) (few : len ≤ 8) : Exact adc sensor
    where
  value := by rw [(summed_sums adc sensor few).value, Fin.sum_univ_def]
  measure := by rw [(summed_sums adc sensor few).measure, Fin.sum_univ_def]

private theorem sees_iff (adc : Adc) (sensor : Sensor len) (few : len ≤ 8) :
    (sensor.sums adc).2.line = true ↔ sensor.Sees adc := by
  simp [(summed_sums adc sensor few).line, Sensor.Sees]

/-! ### What a pass answers -/

/-- A pass that sees the line has something to divide by. -/
theorem measure_pos {adc : Adc} {sensor : Sensor len} (sees : sensor.Sees adc) :
    0 < ∑ i, sensor.level adc i := by
  obtain ⟨i, high⟩ := sees
  exact Finset.sum_pos' (fun _ _ => Nat.zero_le _) ⟨i, Finset.mem_univ i, by omega⟩

/-- The position that a pass computes from what it reads: the mean of the channels. -/
def Sensor.mean (adc : Adc) (sensor : Sensor len) : ℚ :=
  (∑ i, sensor.level adc i * (i + 1) * 1000 : Nat) / (∑ i, sensor.level adc i : Nat)

/-- What a pass leaves of the position, and what it would answer for another one. -/
def nearest (len : Nat) (last : ℚ) : ℚ := if last < len * 500 then 1000 else len * 1000

private theorem position_of_sees {adc : Adc} {tracker : Tracker len} (few : len ≤ 8)
    (sees : tracker.sensor.Sees adc) : tracker.getLinePosition adc =
      (tracker.sensor.mean adc, ⟨(tracker.sensor.sums adc).1, tracker.sensor.mean adc,
        some (tracker.sensor.mean adc)⟩) := by
  have exact := exact_sums adc tracker.sensor few
  have line := (sees_iff adc tracker.sensor few).mpr sees
  have some : (tracker.sensor.sums adc).2.measure > 0 := by
    have positive := measure_pos sees
    rwa [← exact.measure] at positive
  simp [Tracker.getLinePosition, line, some, exact.value, exact.measure, Sensor.mean]

private theorem position_of_blind {adc : Adc} {tracker : Tracker len} (few : len ≤ 8)
    (blind : ¬tracker.sensor.Sees adc) : tracker.getLinePosition adc =
      (nearest len tracker.lastPosition,
        ⟨(tracker.sensor.sums adc).1, nearest len tracker.lastPosition, tracker.lastSeen⟩) := by
  have line : (tracker.sensor.sums adc).2.line = false :=
    Bool.eq_false_iff.mpr fun line => blind ((sees_iff adc tracker.sensor few).mp line)
  have half : len * 1000 / 2 = len * 500 := by omega
  simp [Tracker.getLinePosition, line, half, nearest]

/-- A mean of the channels' positions lies between the first and the last. -/
theorem mean_within {adc : Adc} {sensor : Sensor len} (sees : sensor.Sees adc) :
    1000 ≤ sensor.mean adc ∧ sensor.mean adc ≤ len * 1000 := by
  have placed : ∀ i : Fin len, ((i + 1 : ℚ) * 1000) ∈ Set.Icc (1000 : ℚ) (len * 1000) := by
    intro i
    have last : (i + 1 : ℚ) ≤ len := by exact_mod_cast i.isLt
    have first : (0 : ℚ) ≤ i := Nat.cast_nonneg _
    constructor <;> linarith
  have positive : (0 : ℚ) < ∑ i, (sensor.level adc i : ℚ) := by exact_mod_cast measure_pos sees
  have mean := (convex_Icc (1000 : ℚ) (len * 1000)).centerMass_mem
    (fun i (_ : i ∈ Finset.univ) => Nat.cast_nonneg (sensor.level adc i)) positive
    fun i _ => placed i
  have same : Finset.univ.centerMass (fun i => (sensor.level adc i : ℚ))
      (fun i : Fin len => (i + 1 : ℚ) * 1000) = sensor.mean adc := by
    simp only [Finset.centerMass, Sensor.mean, smul_eq_mul, div_eq_inv_mul]
    push_cast
    simp only [mul_assoc]
  rw [same] at mean
  exact mean

/-! ### Over a run -/

/-- The last position of the sensor, against the one where the line was last seen: it is still that
one, or the end that the pass after it took. -/
def Remembers (tracker : Tracker len) : Prop :=
  ∀ last ∈ tracker.lastSeen, 1000 ≤ last ∧ last ≤ len * 1000 ∧
    (tracker.lastPosition = last ∨ tracker.lastPosition = nearest len last)

/-- A later pass takes the same end again. -/
theorem nearest_nearest {last : ℚ} (first : 1000 ≤ last) :
    nearest len (nearest len last) = nearest len last := by
  have few : (0 : ℚ) ≤ len := Nat.cast_nonneg _
  by_cases near : last < len * 500
  · have low : nearest len last = 1000 := if_pos near
    rw [low, nearest, if_pos (first.trans_lt near)]
  · have high : nearest len last = len * 1000 := if_neg near
    have far : ¬(len * 1000 : ℚ) < len * 500 := by
      rw [not_lt]
      exact mul_le_mul_of_nonneg_left (by norm_num) few
    rw [high, nearest, if_neg far]

private theorem nearest_remembers {tracker : Tracker len} (remembers : Remembers tracker)
    {last : ℚ} (seen : last ∈ tracker.lastSeen) :
    nearest len tracker.lastPosition = nearest len last := by
  obtain ⟨first, -, same | ended⟩ := remembers last seen
  · rw [same]
  · rw [ended, nearest_nearest first]

private theorem remembers_step {adc : Adc} (few : len ≤ 8) {tracker next : Tracker len}
    {event : Event}
    (remembers : Remembers tracker) (stepped : tracker.step adc event = some next) :
    Remembers next := by
  cases event with
  | calibrate nSamples =>
    cases stepped
    exact remembers
  | position =>
    cases stepped
    by_cases sees : tracker.sensor.Sees adc
    · rw [position_of_sees few sees]
      rintro last ⟨⟩
      exact ⟨(mean_within sees).1, (mean_within sees).2, Or.inl rfl⟩
    · rw [position_of_blind few sees]
      intro last seen
      obtain ⟨first, second, -⟩ := remembers last seen
      exact ⟨first, second, Or.inr (nearest_remembers remembers seen)⟩

/-- The end that a pass takes is the right one exactly when the line was not last seen astray. -/
theorem sideOf_iff {tracker : Tracker len} (remembers : Remembers tracker) :
    SideOf len tracker.lastSeen (nearest len tracker.lastPosition) ↔ ¬tracker.Astray := by
  constructor
  · rintro ⟨-, side, -⟩ ⟨last, seen, after, before⟩
    obtain ⟨first, -, -⟩ := remembers last seen
    have high : nearest len last = len * 1000 := if_neg (not_lt.mpr after)
    have low := side last seen before
    rw [nearest_remembers remembers seen, high] at low
    -- both ends are one only where there is one channel, and that channel is not astray
    linarith
  · intro sound
    refine ⟨?_, ?_, ?_⟩
    · rw [nearest]
      exact ite_eq_or_eq ..
    · intro last seen before
      rw [nearest_remembers remembers seen]
      exact if_pos (not_le.mp fun after => sound ⟨last, seen, after, before⟩)
    · intro last seen after
      rw [nearest_remembers remembers seen]
      exact if_neg (by linarith)

private theorem located_iff {adc : Adc} (few : len ≤ 8) {tracker : Tracker len}
    (remembers : Remembers tracker) :
    Located adc tracker ↔ (tracker.Astray → tracker.sensor.Sees adc) := by
  by_cases sees : tracker.sensor.Sees adc
  · refine iff_of_true ?_ fun _ => sees
    refine ⟨exact_sums adc tracker.sensor few, fun _ => ?_, fun blind => absurd sees blind⟩
    rw [position_of_sees few sees]
    exact mean_within sees
  · rw [imp_iff_not_or, or_iff_left sees, ← sideOf_iff remembers]
    constructor
    · intro located
      have side := located.side sees
      rwa [position_of_blind few sees] at side
    · intro side
      refine ⟨exact_sums adc tracker.sensor few, fun seen => absurd seen sees, fun _ => ?_⟩
      rwa [position_of_blind few sees]

private theorem locates_iff {adc : Adc} (few : len ≤ 8) {tracker : Tracker len} {event : Event}
    (remembers : Remembers tracker) : Locates adc tracker event ↔ Sided adc tracker event := by
  cases event with
  | position => exact located_iff few remembers
  | calibrate => exact Iff.rfl

private theorem clampLen_le (len : UInt8) : clampLen len ≤ 8 := by
  unfold clampLen
  split
  · decide
  · split
    · decide
    · rename_i short
      exact UInt8.le_iff_toNat_le.mp (UInt8.not_lt.mp short)

/-- Whatever the calibration, what is read and when the sensor is calibrated again: all passes of a
run locate the line exactly when none that is without it comes while it was last seen astray. -/
theorem located_along_iff (adc : Adc) (len : UInt8) (sensor : Sensor (clampLen len))
    (events : List Event) :
    Along (Tracker.step adc) (Locates adc) ⟨sensor, 0, none⟩ events ↔
      Along (Tracker.step adc) (Sided adc) ⟨sensor, 0, none⟩ events := by
  have few := clampLen_le len
  exact along_congr (fun remembers stepped => remembers_step few remembers stepped)
    (fun remembers => locates_iff few remembers) (by rintro last ⟨⟩) events

/-- Eight channels, of which the fourth reads the line in the first pass, and none in the second. -/
def fourthOnce : Adc
  | 3 => some ⟨0, by decide⟩
  | _ => some ⟨4095, by decide⟩

def fullScale : Sensor (clampLen 8) := ⟨true, fun _ => 0, fun _ => 4095, 0, []⟩

/-- The line was last seen on the side of the first channel, and the answer is the last one. -/
theorem fourth_forgotten : ¬∀ (adc : Adc) (len : UInt8) (sensor : Sensor (clampLen len))
    (events : List Event), Along (Tracker.step adc) (Locates adc) ⟨sensor, 0, none⟩ events := by
  intro locates
  obtain ⟨-, later⟩ := locates fourthOnce 8 fullScale [.position, .position]
  have second : Located fourthOnce (Tracker.getLinePosition fourthOnce ⟨fullScale, 0, none⟩).2 :=
    (later _ rfl).1
  have blind : ¬(Tracker.getLinePosition fourthOnce ⟨fullScale, 0, none⟩).2.sensor.Sees
      fourthOnce := by
    unfold Sensor.Sees
    decide +kernel
  have seen : 4000 ∈ (Tracker.getLinePosition fourthOnce ⟨fullScale, 0, none⟩).2.lastSeen := by
    decide +kernel
  have answer : (Tracker.getLinePosition fourthOnce
      (Tracker.getLinePosition fourthOnce ⟨fullScale, 0, none⟩).2).1 = 8000 := by
    decide +kernel
  have eight : ((clampLen 8 : Nat) : ℚ) = 8 := rfl
  have side := (second.side blind).first 4000 seen
  rw [answer, eight] at side
  exact absurd (side (by norm_num)) (by norm_num)

end BallyOS.ArraySensor
