import Mathlib.Data.List.Infix

/-! Frames written one after the other, and what is left of them when the end
is cut off: some whole frames and a piece of the next. -/
namespace BallyOS.Library

/-- How many of the frames lie whole within a length. -/
def wholeFrames : List (List α) → Nat → Nat
  | [], _ => 0
  | frame :: frames, length =>
    if frame.length ≤ length then wholeFrames frames (length - frame.length) + 1 else 0

theorem wholeFrames_le (frames : List (List α)) (length : Nat) :
    wholeFrames frames length ≤ frames.length := by
  induction frames generalizing length with
  | nil => exact Nat.le_refl _
  | cons frame frames ih =>
    rw [wholeFrames]
    split
    · exact Nat.succ_le_succ (ih _)
    · exact Nat.zero_le _

theorem wholeFrames_mono (frames : List (List α)) (within : short ≤ long) :
    wholeFrames frames short ≤ wholeFrames frames long := by
  induction frames generalizing short long with
  | nil => exact Nat.le_refl _
  | cons frame frames ih =>
    rw [wholeFrames, wholeFrames]
    split
    · rw [if_pos (by omega)]
      exact Nat.succ_le_succ (ih (by omega))
    · exact Nat.zero_le _

theorem wholeFrames_flatten (frames : List (List α)) :
    wholeFrames frames frames.flatten.length = frames.length := by
  induction frames with
  | nil => rfl
  | cons frame frames ih =>
    rw [wholeFrames, List.flatten_cons, List.length_append, if_pos (Nat.le_add_right _ _),
      Nat.add_sub_cancel_left, ih, List.length_cons]

/-- What is left of the frame at an index: nothing, or a front of it that is not all. -/
def Torn (frames : List (List α)) (index : Nat) (piece : List α) : Prop :=
  piece = [] ∨ ∃ frame, frames[index]? = some frame ∧ piece <+: frame ∧
    piece.length < frame.length

/-- Cutting a sequence of frames anywhere leaves whole ones and a piece of the next. -/
theorem prefix_flatten {frames : List (List α)} {text : List α} (cut : text <+: frames.flatten) :
    ∃ piece, text = (frames.take (wholeFrames frames text.length)).flatten ++ piece ∧
      Torn frames (wholeFrames frames text.length) piece := by
  induction frames generalizing text with
  | nil => exact ⟨[], by simpa using cut, .inl rfl⟩
  | cons frame frames ih =>
    rw [List.flatten_cons] at cut
    have front := List.prefix_append frame frames.flatten
    rw [wholeFrames]
    split
    · rename_i within
      obtain ⟨rest, rfl⟩ := List.prefix_of_prefix_length_le front cut within
      obtain ⟨piece, split, torn⟩ := ih ((List.prefix_append_right_inj frame).mp cut)
      rw [List.length_append, Nat.add_sub_cancel_left]
      refine ⟨piece, ?_, torn⟩
      rw [List.take_succ_cons, List.flatten_cons, List.append_assoc, ← split]
    · rename_i less
      have less := Nat.lt_of_not_le less
      have inside := List.prefix_of_prefix_length_le cut front (Nat.le_of_lt less)
      exact ⟨text, rfl, .inr ⟨frame, rfl, inside, less⟩⟩

end BallyOS.Library
