import Mathlib.Data.List.Basic

/-! A byte ring over one block of memory. Writing and reading copy at most two
straight pieces, the one up to the end of the block and the one at its start;
`view` is what they mean, the bytes from a position onward modulo the capacity. -/
namespace BallyOS.Library.ByteRing

abbrev Storage := Nat → UInt8

/-- `memcpy` into the block. -/
def copyIn (offset : Nat) (bytes : List UInt8) (storage : Storage) : Storage := fun index =>
  if offset ≤ index then bytes[index - offset]?.getD (storage index) else storage index

/-- `memcpy` out of the block. -/
def copyOut (offset length : Nat) (storage : Storage) : List UInt8 :=
  (List.range length).map fun index => storage (offset + index)

def write (capacity offset : Nat) (bytes : List UInt8) (storage : Storage) : Storage :=
  let first := min bytes.length (capacity - offset)
  copyIn 0 (bytes.drop first) (copyIn offset (bytes.take first) storage)

def read (capacity offset length : Nat) (storage : Storage) : List UInt8 :=
  let first := min length (capacity - offset)
  copyOut offset first storage ++ copyOut 0 (length - first) storage

/-- The bytes from a position onward, modulo the capacity. -/
def view (capacity offset length : Nat) (storage : Storage) : List UInt8 :=
  (List.range length).map fun index => storage ((offset + index) % capacity)

@[simp] theorem length_view : (view capacity offset length storage).length = length := by
  simp [view]

@[simp] theorem view_zero : view capacity offset 0 storage = [] := rfl

@[simp] theorem view_mod :
    view capacity (offset % capacity) length storage = view capacity offset length storage := by
  simp [view]

theorem view_add : view capacity offset (first + second) storage =
    view capacity offset first storage ++ view capacity (offset + first) second storage := by
  simp only [view, List.range_add, List.map_append, List.map_map, Function.comp_def,
    Nat.add_assoc]

private theorem wrap {offset index capacity : Nat} (within : offset < capacity)
    (short : index < capacity) : (offset + index) % capacity =
      if offset + index < capacity then offset + index else offset + index - capacity := by
  split
  · exact Nat.mod_eq_of_lt ‹_›
  · rw [Nat.mod_eq_sub_mod (by omega), Nat.mod_eq_of_lt (by omega)]

@[simp] theorem length_read : (read capacity offset length storage).length = length := by
  simp only [read, copyOut, List.length_append, List.length_map, List.length_range]
  omega

theorem read_eq_view (within : offset < capacity) (short : length ≤ capacity) :
    read capacity offset length storage = view capacity offset length storage := by
  apply List.ext_getElem
  · simp
  · intro index inRead inView
    simp only [length_view] at inView
    simp only [read, view, copyOut, List.getElem_append, List.getElem_map, List.getElem_range,
      List.length_map, List.length_range, wrap within (Nat.lt_of_lt_of_le inView short)]
    split
    · rw [if_pos (by omega)]
    · rw [if_neg (by omega)]
      congr 1
      omega

/-- What one index of the block holds after a write. -/
private theorem write_apply (index : Nat) : write capacity offset bytes storage index =
    (bytes.drop (min bytes.length (capacity - offset)))[index]?.getD
      (if offset ≤ index ∧ index - offset < min bytes.length (capacity - offset) then
        bytes[index - offset]?.getD (storage index) else storage index) := by
  simp only [write, copyIn, Nat.zero_le, if_true, Nat.sub_zero, List.getElem?_take]
  congr 1
  by_cases above : offset ≤ index <;>
    by_cases inside : index - offset < min bytes.length (capacity - offset) <;>
      simp [above, inside]

private theorem view_write_here (within : offset < capacity) (short : bytes.length ≤ capacity) :
    view capacity offset bytes.length (write capacity offset bytes storage) = bytes := by
  apply List.ext_getElem
  · simp
  · intro index inView inBytes
    simp only [view, List.getElem_map, List.getElem_range, write_apply, List.getElem?_drop,
      wrap within (Nat.lt_of_lt_of_le inBytes short)]
    split
    · rw [List.getElem?_eq_none (by omega), if_pos (by omega), Nat.add_sub_cancel_left,
        List.getElem?_eq_getElem inBytes]
      rfl
    · have place : min bytes.length (capacity - offset) + (offset + index - capacity) = index := by
        omega
      rw [place, List.getElem?_eq_getElem inBytes]
      rfl

/-- A write behind a region leaves the region, as long as both fit. -/
theorem view_write_before 
    (within : offset < capacity) (fits : length + bytes.length ≤ capacity) :
    view capacity offset length
      (write capacity ((offset + length) % capacity) bytes storage) =
        view capacity offset length storage := by
  by_cases none : bytes = []
  · subst none
    simp only [view, write_apply]
    simp
  have some : 0 < bytes.length := List.length_pos_iff.mpr none
  have start := wrap within (show length < capacity by omega)
  apply List.ext_getElem
  · simp
  · intro index inWritten inView
    simp only [length_view] at inView
    simp only [view, List.getElem_map, List.getElem_range, write_apply, List.getElem?_drop]
    have place := wrap within (show index < capacity by omega)
    have outside : ¬((offset + length) % capacity ≤ (offset + index) % capacity ∧
        (offset + index) % capacity - (offset + length) % capacity <
          min bytes.length (capacity - (offset + length) % capacity)) := by
      rw [start, place]
      split <;> split <;> omega
    rw [if_neg outside, List.getElem?_eq_none]
    · rfl
    · rw [start, place]
      split <;> split <;> omega

/-- A write right behind a region extends it by the bytes written. -/
theorem view_write_append (storage : Storage) (bytes : List UInt8)
    (within : offset < capacity) (fits : length + bytes.length ≤ capacity) :
    view capacity offset (length + bytes.length)
      (write capacity ((offset + length) % capacity) bytes storage) =
        view capacity offset length storage ++ bytes := by
  have behind : view capacity (offset + length) bytes.length
      (write capacity ((offset + length) % capacity) bytes storage) = bytes := by
    rw [← view_mod]
    exact view_write_here (Nat.mod_lt _ (by omega)) (by omega)
  rw [view_add, view_write_before within fits, behind]

/-- Part of a region holds the corresponding part of its bytes. -/
theorem view_slice (start count : Nat)
    (held : view capacity offset length storage = bytes)
    (inside : start + count ≤ length) :
    view capacity (offset + start) count storage = (bytes.drop start).take count := by
  obtain ⟨more, rfl⟩ := Nat.exists_eq_add_of_le inside
  subst held
  rw [view_add, view_add, List.append_assoc, List.drop_left' length_view,
    List.take_left' length_view]

end BallyOS.Library.ByteRing
