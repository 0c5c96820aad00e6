import BallyOS.Jobs.File

/-! Which lines the loader may take for it to schedule only what the file says. The card can be
edited by hand, so the file is any sequence of bytes. -/
namespace BallyOS.Jobs
open Library

/-! ### What a line says -/

/-- A number field of nothing but digits and within thirty-two bits, as any printed number is. -/
def IsDecimal (text : List UInt8) : Prop :=
  text ≠ [] ∧ (∀ c ∈ text, isDecimalDigit c = true) ∧ decimalValue text < 2 ^ 32

/-- The fields are numbers where there should be numbers, or the name of a state. -/
def Fields.Plain : Fields → Prop
  | .interval intervalMs remaining _ => IsDecimal intervalMs ∧ IsDecimal remaining
  | .onState state _ => stateFromString state ≠ 0

def Fields.command : Fields → List UInt8
  | .interval _ _ command => command
  | .onState _ command => command

def Fields.grown (more : List UInt8) : Fields → Fields
  | .interval intervalMs remaining command => .interval intervalMs remaining (command ++ more)
  | .onState state command => .onState state (command ++ more)

/-- The loader's own checks pass the line. -/
def accepts (line : List UInt8) : Bool :=
  (fields (untilNul line)).any fun found => found.entry.passes

/-- How many jobs the table can still take. -/
def Scheduler.room (scheduler : Scheduler) : Nat :=
  if scheduler.submit then scheduler.freeSlots else 0

end BallyOS.Jobs
