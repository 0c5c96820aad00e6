import Mathlib.Logic.Function.Basic

/-! The latest items of a sequence in a block of slots: each new one takes the place of the
oldest once the block is full. `latest` is what it means, the newest first. -/
namespace BallyOS.Library

structure Recent (α : Type) where
  slots : Nat → α
  head : Nat := 0
  count : Nat := 0

namespace Recent

/-- The next slot is one of the block's, and no more are taken than it has. -/
structure WellFormed (capacity : Nat) (recent : Recent α) : Prop where
  within : recent.head < capacity
  fits : recent.count ≤ capacity

def note (capacity : Nat) (item : α) (recent : Recent α) : Recent α where
  slots := Function.update recent.slots recent.head item
  head := (recent.head + 1) % capacity
  count := if recent.count < capacity then recent.count + 1 else recent.count

/-- As many of the items as are wanted and there are, from the slot behind the next one back. -/
def latest (capacity wanted : Nat) (recent : Recent α) : List α :=
  (List.range (min wanted recent.count)).map fun age =>
    recent.slots ((recent.head + capacity - 1 - age) % capacity)

theorem wellFormed_note {recent : Recent α} (formed : WellFormed capacity recent) (item : α) :
    WellFormed capacity (recent.note capacity item) where
  within := Nat.mod_lt _ (Nat.zero_lt_of_lt formed.within)
  fits := by
    unfold note
    dsimp only
    split
    · assumption
    · exact formed.fits

theorem latest_eq_take {recent : Recent α} (formed : WellFormed capacity recent) (wanted : Nat) :
    recent.latest capacity wanted = (recent.latest capacity capacity).take wanted := by
  unfold latest
  rw [← List.map_take, List.take_range, Nat.min_eq_right formed.fits]

/-- The newest is in the slot that was next. -/
theorem slot_newest {recent : Recent α} (formed : WellFormed capacity recent) :
    ((recent.head + 1) % capacity + capacity - 1 - 0) % capacity = recent.head := by
  have within := formed.within
  by_cases wraps : recent.head + 1 = capacity
  · rw [wraps, Nat.mod_self, Nat.mod_eq_of_lt (by omega)]
    omega
  · have next : (recent.head + 1) % capacity = recent.head + 1 := Nat.mod_eq_of_lt (by omega)
    have back : recent.head + 1 + capacity - 1 - 0 = recent.head + capacity := by omega
    rw [next, back, Nat.add_mod_right, Nat.mod_eq_of_lt within]

/-- One age more is the same slot as before, and not the one that the newest took. -/
theorem slot_older {recent : Recent α} (formed : WellFormed capacity recent) {age : Nat}
    (young : age + 1 < capacity) :
    ((recent.head + 1) % capacity + capacity - 1 - (age + 1)) % capacity =
        (recent.head + capacity - 1 - age) % capacity ∧
      (recent.head + capacity - 1 - age) % capacity ≠ recent.head := by
  have within := formed.within
  refine ⟨?_, ?_⟩
  · by_cases wraps : recent.head + 1 = capacity
    · have back : recent.head + capacity - 1 - age = 0 + capacity - 1 - (age + 1) + capacity := by
        omega
      rw [back, wraps, Nat.mod_self, Nat.add_mod_right]
    · have next : (recent.head + 1) % capacity = recent.head + 1 := Nat.mod_eq_of_lt (by omega)
      have back :
          recent.head + 1 + capacity - 1 - (age + 1) = recent.head + capacity - 1 - age := by
        omega
      rw [next, back]
  · by_cases before : age + 1 ≤ recent.head
    · have back : recent.head + capacity - 1 - age = recent.head - 1 - age + capacity := by omega
      rw [back, Nat.add_mod_right, Nat.mod_eq_of_lt (by omega)]
      omega
    · rw [Nat.mod_eq_of_lt (by omega)]
      omega

/-- A new item comes first, and the oldest goes when there is no room for all. -/
theorem latest_note {recent : Recent α} (formed : WellFormed capacity recent) (item : α) :
    (recent.note capacity item).latest capacity capacity =
      (item :: recent.latest capacity capacity).take capacity := by
  have fits := formed.fits
  have within := formed.within
  have count : min capacity (recent.note capacity item).count =
      min capacity (recent.count + 1) := by
    unfold note
    dsimp only
    split <;> omega
  refine List.ext_getElem? fun age => ?_
  unfold latest
  rw [count, List.getElem?_map, List.getElem?_take]
  cases age with
  | zero =>
    have some : 0 < min capacity (recent.count + 1) := by omega
    have room : 0 < capacity := by omega
    rw [if_pos room, List.getElem?_range some]
    simp only [Option.map_some, List.getElem?_cons_zero]
    rw [note]
    dsimp only
    rw [slot_newest formed, Function.update_self]
  | succ age =>
    rw [List.getElem?_cons_succ, List.getElem?_map, Nat.min_eq_right fits]
    by_cases held : age < recent.count ∧ age + 1 < capacity
    · have inside : age + 1 < min capacity (recent.count + 1) := by omega
      obtain ⟨same, other⟩ := slot_older formed held.2
      rw [if_pos held.2, List.getElem?_range inside, List.getElem?_range held.1]
      simp only [Option.map_some, note]
      rw [same, Function.update_of_ne other]
    · have outside : min capacity (recent.count + 1) ≤ age + 1 := by omega
      have none : (List.range (min capacity (recent.count + 1)))[age + 1]? = none :=
        List.getElem?_eq_none (by simpa using outside)
      rw [none]
      split
      · have beyond : (List.range recent.count)[age]? = Option.none :=
          List.getElem?_eq_none (by simp only [List.length_range]; omega)
        rw [beyond]
        rfl
      · rfl

end Recent
end BallyOS.Library
