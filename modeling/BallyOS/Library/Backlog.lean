import Mathlib.Data.List.Basic

/-! Items that are passed on in the order they were made. Each is passed on,
dropped, or still waiting; the void item may vanish without a trace. -/
namespace BallyOS.Library

structure Backlog [BEq α] (void : α) (made passed dropped waiting : List α) : Prop where
  ordered : (passed ++ waiting).Sublist made
  counted : ∀ item, item ≠ void →
    made.count item = passed.count item + dropped.count item + waiting.count item

namespace Backlog
variable [BEq α] {void : α}

theorem empty : Backlog void [] [] [] [] :=
  ⟨List.Sublist.refl _, fun _ _ => rfl⟩

/-- A new item waits behind the others. -/
theorem making (backlog : Backlog void made passed dropped waiting) (item : α) :
    Backlog void (made ++ [item]) passed dropped (waiting ++ [item]) := by
  refine ⟨?_, fun other solid => ?_⟩
  · rw [← List.append_assoc]
    exact backlog.ordered.append (List.Sublist.refl _)
  · have before := backlog.counted other solid
    simp only [List.count_append]
    omega

theorem passing (backlog : Backlog void made passed dropped (item :: waiting)) :
    Backlog void made (passed ++ [item]) dropped waiting := by
  refine ⟨?_, fun other solid => ?_⟩
  · rw [List.append_assoc]
    exact backlog.ordered
  · have before := backlog.counted other solid
    simp only [List.count_append, List.count_cons, List.count_nil] at before ⊢
    omega

/-- An item is dropped from wherever it waits. -/
theorem dropping (front : List α)
    (backlog : Backlog void made passed dropped (front ++ item :: behind)) :
    Backlog void made passed (dropped ++ [item]) (front ++ behind) := by
  refine ⟨?_, fun other solid => ?_⟩
  · refine List.Sublist.trans ?_ backlog.ordered
    exact ((List.sublist_cons_self item behind).append_left front).append_left passed
  · have before := backlog.counted other solid
    simp only [List.count_append, List.count_cons, List.count_nil] at before ⊢
    omega

/-- The void item does not wait. -/
theorem vanishing [LawfulBEq α] (front : List α)
    (backlog : Backlog void made passed dropped (front ++ void :: behind)) :
    Backlog void made passed dropped (front ++ behind) := by
  refine ⟨?_, fun other solid => ?_⟩
  · refine List.Sublist.trans ?_ backlog.ordered
    exact ((List.sublist_cons_self void behind).append_left front).append_left passed
  · have before := backlog.counted other solid
    simpa [Ne.symm solid] using before

end Backlog
end BallyOS.Library
