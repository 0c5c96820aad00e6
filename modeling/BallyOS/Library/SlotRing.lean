import Mathlib.Data.List.Basic
import Mathlib.Logic.Function.Basic

/-! A bounded queue in a block of slots with a read cursor, a write cursor and a
count. `contents` is what it means: the items from the read cursor on. -/
namespace BallyOS.Library

structure SlotRing (α : Type) where
  slots : Nat → α
  read : Nat := 0
  write : Nat := 0
  count : Nat := 0

namespace SlotRing

/-- The cursors stand apart by the count, which the block can hold. -/
structure WellFormed (capacity : Nat) (ring : SlotRing α) : Prop where
  fits : ring.count ≤ capacity
  within : ring.read < capacity
  placed : ring.write = (ring.read + ring.count) % capacity

def put (capacity : Nat) (item : α) (ring : SlotRing α) : SlotRing α where
  slots := Function.update ring.slots ring.write item
  read := ring.read
  write := (ring.write + 1) % capacity
  count := ring.count + 1

def advance (capacity : Nat) (ring : SlotRing α) : SlotRing α :=
  { ring with read := (ring.read + 1) % capacity, count := ring.count - 1 }

def contents (capacity : Nat) (ring : SlotRing α) : List α :=
  (List.range ring.count).map fun index => ring.slots ((ring.read + index) % capacity)

@[simp] theorem count_put (item : α) (ring : SlotRing α) :
    (ring.put capacity item).count = ring.count + 1 := rfl

@[simp] theorem count_advance (ring : SlotRing α) :
    (ring.advance capacity).count = ring.count - 1 := rfl

@[simp] theorem length_contents (ring : SlotRing α) :
    (ring.contents capacity).length = ring.count := by
  simp [contents]

/-- A new block starts with both cursors at its first slot. -/
theorem wellFormed_new (room : 0 < capacity) (slots : Nat → α) :
    WellFormed capacity ⟨slots, 0, 0, 0⟩ :=
  ⟨Nat.zero_le _, room, (Nat.zero_mod capacity).symm⟩

theorem wellFormed_put {ring : SlotRing α} (formed : WellFormed capacity ring)
    (room : ring.count < capacity) (item : α) : WellFormed capacity (ring.put capacity item) where
  fits := room
  within := formed.within
  placed := by
    simp only [put, formed.placed, Nat.mod_add_mod]
    rfl

theorem wellFormed_advance {ring : SlotRing α} (formed : WellFormed capacity ring)
    (waiting : 0 < ring.count) : WellFormed capacity (ring.advance capacity) where
  fits := Nat.le_trans (Nat.sub_le _ _) formed.fits
  within := Nat.mod_lt _ (Nat.zero_lt_of_lt formed.within)
  placed := by
    have shift : ring.read + 1 + (ring.count - 1) = ring.read + ring.count := by omega
    simp only [advance, Nat.mod_add_mod, shift, formed.placed]

/-- Two places of the queue are the same slot only when they are the same place. -/
private theorem place_ne {capacity start index last : Nat} (room : last < capacity)
    (before : index < last) : (start + index) % capacity ≠ (start + last) % capacity := by
  intro same
  have divides : capacity ∣ start + last - (start + index) :=
    Nat.dvd_of_mod_eq_zero (Nat.sub_mod_eq_zero_of_mod_eq same.symm)
  have := Nat.le_of_dvd (by omega) divides
  omega

/-- An item goes in behind the others. -/
theorem contents_put {ring : SlotRing α} (formed : WellFormed capacity ring)
    (room : ring.count < capacity) (item : α) :
    (ring.put capacity item).contents capacity = ring.contents capacity ++ [item] := by
  simp only [contents, count_put, List.range_succ, List.map_append, List.map_cons, List.map_nil]
  congr 1
  · apply List.map_congr_left
    intro index member
    have before : index < ring.count := List.mem_range.mp member
    simp only [put]
    rw [Function.update_of_ne]
    rw [formed.placed]
    exact place_ne room before
  · simp [put, formed.placed]

/-- The item at the read cursor is the first one. -/
theorem contents_advance {ring : SlotRing α} (formed : WellFormed capacity ring)
    (waiting : 0 < ring.count) :
    ring.contents capacity = ring.slots ring.read :: (ring.advance capacity).contents capacity := by
  obtain ⟨count, counted⟩ : ∃ count, ring.count = count + 1 :=
    ⟨ring.count - 1, by omega⟩
  simp only [contents, advance, counted, Nat.add_sub_cancel, List.range_succ_eq_map,
    List.map_cons, List.map_map, Nat.add_zero, Nat.mod_eq_of_lt formed.within]
  congr 1
  apply List.map_congr_left
  intro index _
  simp only [Function.comp_apply, Nat.mod_add_mod]
  congr 2
  omega

end SlotRing
end BallyOS.Library
