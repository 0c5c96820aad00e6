import Mathlib.Data.List.FinRange
import Mathlib.Logic.Function.Iterate

/-! The line sensor: up to eight channels behind one multiplexer, read one after the other
through one ADC, and the extremes that a calibration takes of each. -/
namespace BallyOS.ArraySensor

/-- What the ADC counted, and nothing if the read failed. -/
abbrev Outcome := Option (Fin 4096)

/-- What the ADC answers to one read after the other. -/
abbrev Adc := Nat → Outcome

/-- A read of a channel, with the channel's extremes before and after. -/
structure Reading (len : Nat) where
  channel : Fin len
  outcome : Outcome
  before : UInt16 × UInt16
  after : UInt16 × UInt16
deriving Repr, DecidableEq

/-- The first `len` entries of the arrays, which are all that the code uses. `ready` says that
there is a handle of the ADC, `taken` is how many of its answers were used, and `readings` are the
reads of the calibrations with the latest first, which nobody keeps. -/
structure Sensor (len : Nat) where
  ready : Bool
  min : Fin len → UInt16
  max : Fin len → UInt16
  taken : Nat := 0
  readings : List (Reading len) := []

def maxLen : UInt8 := 8

def clampLen (len : UInt8) : Nat :=
  if len = 0 then 1 else if len > maxLen then maxLen.toNat else len.toNat

def Sensor.create (len : UInt8) (ready : Bool) : Sensor (clampLen len) where
  ready := ready
  min _ := 4095
  max _ := 0

variable {len : Nat}

/-- What comes of a read of a channel. -/
def Sensor.outcome (adc : Adc) (sensor : Sensor len) (index : Nat) : Outcome × Sensor len :=
  if index ≥ len || !sensor.ready then (none, sensor)
  else (adc sensor.taken, { sensor with taken := sensor.taken + 1 })

/-- What `read` returns for it. -/
def valueOf : Outcome → UInt16
  | none => 0
  | some raw => UInt16.ofNat (4095 - raw.val)

def Sensor.read (adc : Adc) (sensor : Sensor len) (index : Nat) : UInt16 × Sensor len :=
  (valueOf (sensor.outcome adc index).1, (sensor.outcome adc index).2)

/-- The body of the loops of `calibrate`. -/
def Sensor.measure (adc : Adc) (sensor : Sensor len) (j : Fin len) : Sensor len :=
  let (value, after) := sensor.read adc j
  let low := if value < sensor.min j then value else sensor.min j
  let high := if value > sensor.max j then value else sensor.max j
  { after with
    min := Function.update sensor.min j low
    max := Function.update sensor.max j high
    readings := ⟨j, (sensor.outcome adc j).1, (sensor.min j, sensor.max j), (low, high)⟩ ::
      sensor.readings }

/-- One sample of every channel. -/
def Sensor.sweep (adc : Adc) (sensor : Sensor len) : Sensor len :=
  (List.finRange len).foldl (Sensor.measure adc) sensor

def Sensor.calibrationOk (sensor : Sensor len) : Bool :=
  decide (∀ i, ¬((sensor.max i).toNat : Int) - (sensor.min i).toNat ≤ 100)

/-- The delay between the samples leaves the sensor as it is. -/
def Sensor.calibrate (adc : Adc) (sensor : Sensor len) (nSamples : UInt8) : Bool × Sensor len :=
  let after := (Sensor.sweep adc)^[nSamples.toNat] sensor
  (after.calibrationOk, after)

/-- One call after the other. -/
def Sensor.calibrations (adc : Adc) (sensor : Sensor len) (calls : List UInt8) : Sensor len :=
  calls.foldl (fun sensor nSamples => (sensor.calibrate adc nSamples).2) sensor

end BallyOS.ArraySensor
