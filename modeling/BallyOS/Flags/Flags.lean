import BallyOS.Library.Run
import Mathlib.Algebra.Group.Nat.Defs
import Mathlib.Logic.Function.Basic

/-! Eight flags in a byte, each with the time at which it was set and the time it lasts. A
check clears those that have lasted longer. The clock is the low 32 bits of the milliseconds
since boot, so ages are taken modulo their wrap. -/
namespace BallyOS.Flags

def kMaxFlags : Nat := 8

/-- What the flags read of the clock. -/
def millis (nowMs : Nat) : UInt32 := UInt32.ofNat nowMs

structure FlagsBase where
  allFlags : BitVec 8 := 0
  time : Nat → UInt32 := fun _ => 0
  timeLimit : Nat → UInt32 := fun _ => 100

def isValidIndex (index : UInt8) : Bool := index.toNat < kMaxFlags

namespace FlagsBase

def isActive (flags : FlagsBase) (index : Nat) : Bool :=
  flags.allFlags &&& (1#8 <<< index) ≠ 0

/-- The flag is set now, to last so long. -/
def setFlag (flags : FlagsBase) (nowMs : Nat) (index : Nat) (time : UInt32) : FlagsBase where
  allFlags := flags.allFlags ||| (1#8 <<< index)
  time := Function.update flags.time index (millis nowMs)
  timeLimit := Function.update flags.timeLimit index time

def refreshFlag (currentTime : UInt32) (flags : FlagsBase) (index : Nat) : FlagsBase :=
  if flags.isActive index then
    if currentTime - flags.time index > flags.timeLimit index then
      { flags with allFlags := flags.allFlags &&& ~~~(1#8 <<< index) }
    else flags
  else flags

def refreshFlags (flags : FlagsBase) (currentTime : UInt32) : FlagsBase :=
  (List.range kMaxFlags).foldl (refreshFlag currentTime) flags

def checkFlagsDuration (flags : FlagsBase) (nowMs : Nat) : FlagsBase :=
  flags.refreshFlags (millis nowMs)

/-- The flag has lasted longer than it may. -/
def Overdue (flags : FlagsBase) (currentTime : UInt32) (index : Nat) : Prop :=
  currentTime - flags.time index > flags.timeLimit index

/-! ### Bits -/

theorem isActive_eq (flags : FlagsBase) (index : Nat) :
    flags.isActive index = flags.allFlags.getLsbD index := by
  have bit := BitVec.and_twoPow flags.allFlags index
  rw [BitVec.twoPow] at bit
  unfold isActive
  rw [bit]
  cases set : flags.allFlags.getLsbD index with
  | false => simp
  | true =>
    have within := BitVec.lt_of_getLsbD set
    have nonzero : 1#8 <<< index ≠ 0#8 := by
      intro zero
      have one := congrArg (·.getLsbD index) zero
      simp [within] at one
    simpa using nonzero

theorem isActive_setFlag (flags : FlagsBase) (nowMs : Nat) {index : Nat}
    (within : index < kMaxFlags) (time : UInt32) (other : Nat) :
    (flags.setFlag nowMs index time).isActive other =
      (flags.isActive other || decide (other = index)) := by
  have inside : index < 8 := within
  simp only [isActive_eq, setFlag, BitVec.getLsbD_or, ← BitVec.twoPow_eq, BitVec.getLsbD_twoPow,
    inside, decide_true, Bool.true_and, eq_comm]

theorem isActive_cleared (flags : FlagsBase) (index other : Nat) :
    { flags with allFlags := flags.allFlags &&& ~~~(1#8 <<< index) }.isActive other = true ↔
      flags.isActive other = true ∧ other ≠ index := by
  simp only [isActive_eq, BitVec.getLsbD_and, BitVec.getLsbD_not, ← BitVec.twoPow_eq,
    BitVec.getLsbD_twoPow, Bool.and_eq_true, Bool.not_eq_true', decide_eq_true_eq]
  constructor
  · rintro ⟨set, within, apart⟩
    refine ⟨set, fun same => ?_⟩
    simp [same, same ▸ within] at apart
  · rintro ⟨set, apart⟩
    exact ⟨set, BitVec.lt_of_getLsbD set, by simp [Ne.symm apart]⟩

private theorem isActive_refreshFlag (flags : FlagsBase) (currentTime : UInt32) (index other : Nat)
    :
    (refreshFlag currentTime flags index).isActive other = true ↔
      flags.isActive other = true ∧ ¬ (other = index ∧ flags.Overdue currentTime index) := by
  unfold refreshFlag Overdue
  split
  · split
    · rename_i overdue
      rw [isActive_cleared]
      simp only [overdue, and_true, ne_eq]
    · rename_i fresh
      exact ⟨fun set => ⟨set, fun both => fresh both.2⟩, And.left⟩
  · rename_i inactive
    refine ⟨fun set => ⟨set, fun both => inactive ?_⟩, And.left⟩
    rw [← both.1]
    exact set

private theorem refreshFlag_frame (flags : FlagsBase) (currentTime : UInt32) (index : Nat) :
    (refreshFlag currentTime flags index).time = flags.time ∧
      (refreshFlag currentTime flags index).timeLimit = flags.timeLimit := by
  unfold refreshFlag
  split
  · split
    · exact ⟨rfl, rfl⟩
    · exact ⟨rfl, rfl⟩
  · exact ⟨rfl, rfl⟩

private theorem foldl_refreshFlag (currentTime : UInt32) (indices : List Nat) (flags : FlagsBase) :
    (indices.foldl (refreshFlag currentTime) flags).time = flags.time ∧
      (indices.foldl (refreshFlag currentTime) flags).timeLimit = flags.timeLimit ∧
      ∀ other, (indices.foldl (refreshFlag currentTime) flags).isActive other = true ↔
        flags.isActive other = true ∧ ¬ (other ∈ indices ∧ flags.Overdue currentTime other) := by
  induction indices generalizing flags with
  | nil => simp
  | cons index rest ih =>
    obtain ⟨time, limit⟩ := refreshFlag_frame flags currentTime index
    obtain ⟨restTime, restLimit, active⟩ := ih (refreshFlag currentTime flags index)
    refine ⟨restTime.trans time, restLimit.trans limit, fun other => ?_⟩
    have first := isActive_refreshFlag flags currentTime index other
    have same : (refreshFlag currentTime flags index).Overdue currentTime other ↔
        flags.Overdue currentTime other := by
      rw [Overdue, Overdue, time, limit]
    rw [List.foldl_cons, active, first, same, List.mem_cons]
    constructor
    · rintro ⟨⟨set, head⟩, tail⟩
      refine ⟨set, ?_⟩
      rintro ⟨rfl | member, overdue⟩
      · exact head ⟨rfl, overdue⟩
      · exact tail ⟨member, overdue⟩
    · rintro ⟨set, fresh⟩
      refine ⟨⟨set, ?_⟩, fun late => fresh ⟨.inr late.1, late.2⟩⟩
      rintro ⟨rfl, overdue⟩
      exact fresh ⟨.inl rfl, overdue⟩

/-- A check clears the flags that are overdue, and touches nothing else. -/
theorem checkFlagsDuration_spec (flags : FlagsBase) (nowMs : Nat) :
    (flags.checkFlagsDuration nowMs).time = flags.time ∧
      (flags.checkFlagsDuration nowMs).timeLimit = flags.timeLimit ∧
      ∀ index, (flags.checkFlagsDuration nowMs).isActive index = true ↔
        flags.isActive index = true ∧
          ¬ (index < kMaxFlags ∧ flags.Overdue (millis nowMs) index) := by
  simpa only [checkFlagsDuration, refreshFlags, List.mem_range] using
    foldl_refreshFlag (millis nowMs) (List.range kMaxFlags) flags

end FlagsBase

/-- An age of less than a wrap is what the clock's low bits show. -/
theorem millis_sub {earlier later : Nat} (onward : earlier ≤ later)
    (within : later - earlier < 2 ^ 32) :
    (millis later - millis earlier).toNat = later - earlier := by
  simp only [millis, UInt32.toNat_sub, UInt32.toNat_ofNat']
  omega

end BallyOS.Flags
