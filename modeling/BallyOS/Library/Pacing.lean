import Mathlib.Order.Lattice
import Mathlib.Algebra.Group.Defs

/-! A duty that is done at a pace which whoever wants it may change at any beat.
Done, it is due again a period later; while nobody wants it, it stays due. -/
namespace BallyOS.Library
variable {Time : Type} [LinearOrder Time] [Add Time]

structure Beat (Time : Type) where
  now : Time
  wanted : Bool
  period : Time

namespace Beat

def due (beat : Beat Time) (next : Time) : Prop := beat.wanted = true ∧ next ≤ beat.now

instance (beat : Beat Time) (next : Time) : Decidable (beat.due next) :=
  inferInstanceAs (Decidable (_ ∧ _))

/-- When the duty is next to be done, after this beat. -/
def rearm (beat : Beat Time) (next : Time) : Time :=
  if beat.due next then beat.now + beat.period else if beat.wanted then next else beat.now

end Beat

/-- When it is next to be done, after these beats, the latest first. -/
def nextAfter (start : Time) : List (Beat Time) → Time
  | [] => start
  | beat :: earlier => beat.rearm (nextAfter start earlier)

/-- Since it was last done it has been wanted all along, for less than a period. -/
def Fresh (start now : Time) (earlier : List (Beat Time)) : Prop :=
  ∃ since last before, earlier = since ++ last :: before ∧ (∀ beat ∈ since, beat.wanted = true) ∧
    last.due (nextAfter start before) ∧ now < last.now + last.period

private theorem fresh_cons {start now : Time} {beat : Beat Time} {earlier : List (Beat Time)} :
    Fresh start now (beat :: earlier) ↔
      beat.due (nextAfter start earlier) ∧ now < beat.now + beat.period ∨
        beat.wanted = true ∧ Fresh start now earlier := by
  constructor
  · rintro ⟨since, last, before, split, wanted, due, early⟩
    cases since with
    | nil =>
      obtain ⟨rfl, rfl⟩ := List.cons_eq_cons.mp split
      exact .inl ⟨due, early⟩
    | cons first since =>
      obtain ⟨rfl, rfl⟩ := List.cons_eq_cons.mp split
      rw [List.forall_mem_cons] at wanted
      exact .inr ⟨wanted.1, since, last, before, rfl, wanted.2, due, early⟩
  · rintro (⟨due, early⟩ | ⟨wanted, since, last, before, rfl, all, due, early⟩)
    · exact ⟨[], beat, earlier, rfl, nofun, due, early⟩
    · exact ⟨beat :: since, last, before, rfl, List.forall_mem_cons.mpr ⟨wanted, all⟩, due, early⟩

private theorem nextAfter_le_iff {start now : Time} {earlier : List (Beat Time)}
    (begun : start ≤ now)
    (ordered : earlier.Pairwise fun later beat => beat.now ≤ later.now)
    (after : ∀ beat ∈ earlier, start ≤ beat.now ∧ beat.now ≤ now) :
    nextAfter start earlier ≤ now ↔ ¬Fresh start now earlier := by
  induction earlier generalizing now with
  | nil =>
    refine iff_of_true begun ?_
    rintro ⟨since, last, before, split, -⟩
    exact List.append_ne_nil_of_right_ne_nil since (List.cons_ne_nil last before) split.symm
  | cons beat earlier ih =>
    rw [List.pairwise_cons] at ordered
    rw [List.forall_mem_cons] at after
    obtain ⟨⟨begun_beat, past⟩, after⟩ := after
    rw [fresh_cons, nextAfter, Beat.rearm]
    by_cases due : beat.due (nextAfter start earlier)
    · -- nothing that was done before the beat is still fresh at it
      have stale : ¬Fresh start now earlier := by
        have notFresh := (ih begun_beat ordered.2 fun older member =>
          ⟨(after older member).1, ordered.1 older member⟩).mp due.2
        rintro ⟨since, last, before, split, wanted, done, early⟩
        exact notFresh ⟨since, last, before, split, wanted, done, lt_of_le_of_lt past early⟩
      rw [if_pos due]
      simp [due, stale]
    · rw [if_neg due]
      by_cases wanted : beat.wanted = true
      · rw [if_pos wanted, ih begun ordered.2 after]
        simp [due, wanted]
      · rw [if_neg wanted]
        simp [due, wanted, past]

/-- It is done exactly when it is wanted and not fresh. -/
theorem due_iff {start : Time} {beat : Beat Time} {earlier : List (Beat Time)}
    (ordered : (beat :: earlier).Pairwise fun later beat => beat.now ≤ later.now)
    (after : ∀ other ∈ beat :: earlier, start ≤ other.now) :
    beat.due (nextAfter start earlier) ↔ beat.wanted = true ∧ ¬Fresh start beat.now earlier := by
  rw [List.pairwise_cons] at ordered
  rw [List.forall_mem_cons] at after
  rw [Beat.due, nextAfter_le_iff after.1 ordered.2 fun other member =>
    ⟨after.2 other member, ordered.1 other member⟩]

end BallyOS.Library
