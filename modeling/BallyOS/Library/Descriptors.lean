import Mathlib.Logic.Function.Basic

/-! A table of descriptors that several owners share, and the slots in which one
of them keeps its own. Who has each of its descriptors in exactly one slot
closes every one of them once, and never another's. -/
namespace BallyOS.Library

abbrev Table (Owner : Type) := Nat → Option Owner

/-- The owner's entries are what is in its slots, each in one of them. -/
structure Owns {Slot : Type} (table : Table Owner) (owner : Owner) (slots : Slot → Option Nat) :
    Prop where
  exact : ∀ descriptor, table descriptor = some owner ↔ ∃ slot, slots slot = some descriptor
  single : ∀ one two descriptor, slots one = some descriptor → slots two = some descriptor →
    one = two

section

variable {Slot : Type} {table : Table Owner} {owner : Owner} {slots : Slot → Option Nat}

theorem owns_nothing (table : Table Owner) (owner : Owner)
    (foreign : ∀ descriptor, table descriptor ≠ some owner) :
    Owns table owner (fun _ : Slot => none) :=
  ⟨fun descriptor => iff_of_false (foreign descriptor) (by simp), nofun⟩

/-- What others do with entries that are not the owner's. -/
theorem owns_others {now : Option Owner} (owns : Owns table owner slots)
    (before : table descriptor ≠ some owner) (after : now ≠ some owner) :
    Owns (Function.update table descriptor now) owner slots where
  single := owns.single
  exact other := by
    by_cases same : other = descriptor
    · subst same
      rw [Function.update_self]
      exact iff_of_false after fun held => before ((owns.exact other).mpr held)
    · rw [Function.update_of_ne same, owns.exact]

variable [DecidableEq Slot]

/-- What a slot has goes to one that is empty. -/
def transferred (slots : Slot → Option Nat) (source target : Slot) : Slot → Option Nat :=
  Function.update (Function.update slots source none) target (slots source)

theorem transferred_of_ne {source target slot : Slot} (notSource : slot ≠ source)
    (notTarget : slot ≠ target) : transferred slots source target slot = slots slot := by
  rw [transferred, Function.update_of_ne notTarget, Function.update_of_ne notSource]

theorem transferred_source {source target : Slot} (apart : source ≠ target) :
    transferred slots source target source = none := by
  rw [transferred, Function.update_of_ne apart, Function.update_self]

private theorem transferred_target {source target : Slot} :
    transferred slots source target target = slots source := Function.update_self ..

/-- Where a descriptor is after the move. -/
theorem transferred_eq_some {source target slot : Slot} (apart : source ≠ target)
    (empty : slots target = none) : transferred slots source target slot = some descriptor ↔
      (slot = target ∧ slots source = some descriptor) ∨
        (slot ≠ source ∧ slots slot = some descriptor) := by
  by_cases target_ : slot = target
  · subst target_
    simp [transferred_target, empty]
  · by_cases source_ : slot = source
    · subst source_
      simp [transferred_source apart, target_]
    · simp [transferred_of_ne source_ target_, target_, source_]

theorem owns_transferred (owns : Owns table owner slots) {source target : Slot}
    (apart : source ≠ target) (empty : slots target = none) :
    Owns table owner (transferred slots source target) where
  exact descriptor := by
    rw [owns.exact]
    constructor
    · rintro ⟨slot, held⟩
      by_cases same : slot = source
      · exact ⟨target, (transferred_eq_some apart empty).mpr (.inl ⟨rfl, same ▸ held⟩)⟩
      · exact ⟨slot, (transferred_eq_some apart empty).mpr (.inr ⟨same, held⟩)⟩
    · rintro ⟨slot, held⟩
      obtain ⟨-, held⟩ | ⟨-, held⟩ := (transferred_eq_some apart empty).mp held
      · exact ⟨source, held⟩
      · exact ⟨slot, held⟩
  single one two descriptor first second := by
    obtain ⟨here, sent⟩ | ⟨left, kept⟩ := (transferred_eq_some apart empty).mp first
    · obtain ⟨there, -⟩ | ⟨away, also⟩ := (transferred_eq_some apart empty).mp second
      · rw [here, there]
      · exact absurd (owns.single _ _ _ also sent) away
    · obtain ⟨-, also⟩ | ⟨-, also⟩ := (transferred_eq_some apart empty).mp second
      · exact absurd (owns.single _ _ _ kept also) left
      · exact owns.single _ _ _ kept also

theorem owns_opened (owns : Owns table owner slots) (free : table descriptor = none) {slot : Slot}
    (empty : slots slot = none) :
    Owns (Function.update table descriptor (some owner)) owner
      (Function.update slots slot (some descriptor)) := by
  have nowhere : ∀ other, slots other ≠ some descriptor := by
    intro other held
    rw [(owns.exact descriptor).mpr ⟨other, held⟩] at free
    cases free
  refine ⟨fun other => ?_, fun one two other first second => ?_⟩
  · by_cases same : other = descriptor
    · subst same
      simp only [Function.update_self, true_iff]
      exact ⟨slot, Function.update_self ..⟩
    · rw [Function.update_of_ne same, owns.exact]
      refine exists_congr fun place => ?_
      by_cases here : place = slot
      · subst here
        simp [empty, Ne.symm same]
      · rw [Function.update_of_ne here]
  · by_cases here : one = slot
    · by_cases there : two = slot
      · rw [here, there]
      · rw [here, Function.update_self] at first
        rw [Function.update_of_ne there] at second
        cases first
        exact absurd second (nowhere two)
    · rw [Function.update_of_ne here] at first
      by_cases there : two = slot
      · rw [there, Function.update_self] at second
        cases second
        exact absurd first (nowhere one)
      · rw [Function.update_of_ne there] at second
        exact owns.single one two other first second

theorem owns_closed (owns : Owns table owner slots) {slot : Slot}
    (held : slots slot = some descriptor) :
    Owns (Function.update table descriptor none) owner (Function.update slots slot none) := by
  have left {place : Slot} {other : Nat} :
      Function.update slots slot none place = some other ↔
        place ≠ slot ∧ slots place = some other := by
    by_cases here : place = slot
    · subst here
      simp
    · simp [here]
  refine ⟨fun other => ?_, fun one two other first second => ?_⟩
  · simp only [left]
    by_cases same : other = descriptor
    · subst same
      rw [Function.update_self]
      refine iff_of_false nofun ?_
      rintro ⟨place, apart, also⟩
      exact apart (owns.single _ _ _ also held)
    · rw [Function.update_of_ne same, owns.exact]
      refine exists_congr fun place => ⟨fun also => ⟨?_, also⟩, And.right⟩
      rintro rfl
      cases held.symm.trans also
      exact same rfl
  · exact owns.single one two other (left.mp first).2 (left.mp second).2

end

end BallyOS.Library
