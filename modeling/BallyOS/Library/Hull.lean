import Mathlib.Order.Lattice

/-! The least and the greatest of what has been seen, kept in two places as a scan keeps them:
from the other end of the range each, and replaced by a value beyond. -/
namespace BallyOS.Library

variable [LinearOrder α]

/-- The two are the least and the greatest of the values, and `top` and `bottom` as long as there
are none. -/
structure Hull (top bottom : α) (values : List α) (low high : α) : Prop where
  nothing : values = [] → low = top ∧ high = bottom
  something : values ≠ [] → low ∈ values ∧ high ∈ values ∧ ∀ value ∈ values,
    low ≤ value ∧ value ≤ high

theorem hull_nil (top bottom : α) : Hull top bottom [] top bottom where
  nothing _ := ⟨rfl, rfl⟩
  something none := absurd rfl none

/-- A value in range is taken in by a comparison with each of the two. -/
theorem hull_cons {top bottom low high value : α} {values : List α}
    (hull : Hull top bottom values low high) (below : value ≤ top) (above : bottom ≤ value) :
    Hull top bottom (value :: values) (if value < low then value else low)
      (if high < value then value else high) where
  nothing none := by cases none
  something _ := by
    by_cases none : values = []
    · obtain ⟨rfl, rfl⟩ := hull.nothing none
      subst none
      have least : (if value < low then value else low) = value := by
        split
        · rfl
        · exact le_antisymm (not_lt.mp ‹_›) below
      have greatest : (if high < value then value else high) = value := by
        split
        · rfl
        · exact le_antisymm above (not_lt.mp ‹_›)
      simp [least, greatest]
    · obtain ⟨least, greatest, between⟩ := hull.something none
      refine ⟨?_, ?_, fun other member => ⟨?_, ?_⟩⟩
      · split
        · exact List.mem_cons_self
        · exact List.mem_cons_of_mem _ least
      · split
        · exact List.mem_cons_self
        · exact List.mem_cons_of_mem _ greatest
      · rcases List.mem_cons.mp member with rfl | old
        · split
          · exact le_refl _
          · exact not_lt.mp ‹_›
        · split
          · exact le_trans (le_of_lt ‹_›) (between other old).1
          · exact (between other old).1
      · rcases List.mem_cons.mp member with rfl | old
        · split
          · exact le_refl _
          · exact not_lt.mp ‹_›
        · split
          · exact le_trans (between other old).2 (le_of_lt ‹_›)
          · exact (between other old).2

/-- The lower end is at the bottom of the range exactly when a value was. -/
theorem hull_low_eq_bottom_iff {top bottom low high : α} {values : List α}
    (hull : Hull top bottom values low high) (range : bottom ≠ top)
    (above : ∀ value ∈ values, bottom ≤ value) : low = bottom ↔ bottom ∈ values := by
  constructor
  · rintro rfl
    have some : values ≠ [] := fun none => range (hull.nothing none).1
    exact (hull.something some).1
  · intro member
    obtain ⟨least, -, between⟩ := hull.something (List.ne_nil_of_mem member)
    exact le_antisymm (between bottom member).1 (above low least)

end BallyOS.Library
