import Mathlib.Data.List.Basic

/-! A stream cut into pieces as it comes, where what came since the last cut tells
whether it is a piece. -/
namespace BallyOS.Library

variable {ends : List α → Bool}

/-- The pieces once `started` has come, and what is left open. -/
def cutFrom (ends : List α → Bool) : List α → List α → List (List α) × List α
  | started, [] => ([], started)
  | started, c :: text =>
    if ends (started ++ [c]) then
      let (pieces, left) := cutFrom ends [] text
      ((started ++ [c]) :: pieces, left)
    else cutFrom ends (started ++ [c]) text

def cut (ends : List α → Bool) (text : List α) : List (List α) × List α := cutFrom ends [] text

/-- What came since the last cut. -/
def unfinished (ends : List α → Bool) (text : List α) : List α := (cut ends text).2

private theorem cutFrom_append (ends : List α → Bool) (started text more : List α) :
    cutFrom ends started (text ++ more) =
      ((cutFrom ends started text).1 ++ (cutFrom ends (cutFrom ends started text).2 more).1,
        (cutFrom ends (cutFrom ends started text).2 more).2) := by
  induction text generalizing started with
  | nil => rfl
  | cons c text ih =>
    rw [List.cons_append, cutFrom, cutFrom]
    split
    · rw [ih]
      rfl
    · rw [ih]

theorem cut_append (ends : List α → Bool) (text more : List α) :
    cut ends (text ++ more) =
      ((cut ends text).1 ++ (cutFrom ends (unfinished ends text) more).1,
        (cutFrom ends (unfinished ends text) more).2) :=
  cutFrom_append ends [] text more

private theorem flatten_cutFrom (ends : List α → Bool) (started text : List α) :
    (cutFrom ends started text).1.flatten ++ (cutFrom ends started text).2 = started ++ text := by
  induction text generalizing started with
  | nil => simp [cutFrom]
  | cons c text ih =>
    rw [cutFrom]
    split
    · simp [ih]
    · rw [ih]
      simp

/-- A whole piece first. -/
theorem cut_piece {piece : List α} (whole : cut ends piece = ([piece], [])) (text : List α) :
    cut ends (piece ++ text) = (piece :: (cut ends text).1, (cut ends text).2) := by
  rw [cut_append, unfinished, whole]
  rfl

/-- Letters that carry more than the cuts go by are cut in the same places. -/
theorem cutFrom_map (f : β → α) (ends : List α → Bool) (started text : List β) :
    cutFrom ends (started.map f) (text.map f) =
      ((cutFrom (fun piece => ends (piece.map f)) started text).1.map (List.map f),
        (cutFrom (fun piece => ends (piece.map f)) started text).2.map f) := by
  induction text generalizing started with
  | nil => rfl
  | cons c text ih =>
    have more : started.map f ++ [f c] = (started ++ [c]).map f := by simp
    rw [List.map_cons, cutFrom, cutFrom, more]
    split
    · rw [← List.map_nil (f := f), ih]
      rfl
    · exact ih (started ++ [c])

theorem unfinished_map (f : β → α) (ends : List α → Bool) (text : List β) :
    unfinished ends (text.map f) = (unfinished (fun piece => ends (piece.map f)) text).map f :=
  congrArg Prod.snd (cutFrom_map f ends [] text)

/-- What is a whole piece with less is one with more. -/
theorem cut_of_map {f : β → α} {piece : List β}
    (whole : cut ends (piece.map f) = ([piece.map f], [])) :
    cut (fun piece => ends (piece.map f)) piece = ([piece], []) := by
  have mapped : cut ends (piece.map f) =
      ((cut (fun piece => ends (piece.map f)) piece).1.map (List.map f),
        (cut (fun piece => ends (piece.map f)) piece).2.map f) := cutFrom_map f ends [] piece
  have parts : (cut (fun piece => ends (piece.map f)) piece).1.flatten ++
      (cut (fun piece => ends (piece.map f)) piece).2 = piece :=
    flatten_cutFrom (fun piece => ends (piece.map f)) [] piece
  rw [whole] at mapped
  generalize cut (fun piece => ends (piece.map f)) piece = found at mapped parts ⊢
  obtain ⟨pieces, left⟩ := found
  obtain ⟨one, none⟩ := Prod.mk.inj mapped
  cases List.map_eq_nil_iff.mp none.symm
  obtain ⟨only, rfl, _⟩ := List.map_eq_singleton_iff.mp one.symm
  have same : only = piece := by simpa using parts
  rw [same]

/-- Each piece of a text, and what is left open, is a contiguous piece of a stream. -/
def Contiguous (ends : List α → Bool) (stream text : List α) : Prop :=
  (∀ piece ∈ (cut ends text).1, piece <:+: stream) ∧ unfinished ends text <:+: stream

theorem contiguous_nil (stream : List α) : Contiguous ends stream [] :=
  ⟨fun _ member => absurd member List.not_mem_nil, List.nil_infix⟩

theorem Contiguous.later {stream text : List α} (contiguous : Contiguous ends stream text)
    (more : List α) : Contiguous ends (stream ++ more) text :=
  ⟨fun piece member => List.infix_append_of_infix_left (contiguous.1 piece member),
    List.infix_append_of_infix_left contiguous.2⟩

/-- More of the stream, right after what is left open or with nothing left open. -/
theorem Contiguous.append {stream text more : List α} (contiguous : Contiguous ends stream text)
    (joins : unfinished ends text <:+ stream ∨ unfinished ends text = []) :
    Contiguous ends (stream ++ more) (text ++ more) ∧
      unfinished ends (text ++ more) <:+ stream ++ more := by
  have joined : unfinished ends text ++ more <:+ stream ++ more := by
    obtain ⟨before, split⟩ | none := joins
    · exact ⟨before, by rw [← List.append_assoc, split]⟩
    · rw [none]
      exact List.suffix_append stream more
  have whole := flatten_cutFrom ends (unfinished ends text) more
  have left : (cutFrom ends (unfinished ends text) more).2 <:+ unfinished ends text ++ more :=
    ⟨_, whole⟩
  have rest : unfinished ends (text ++ more) <:+ stream ++ more := by
    rw [unfinished, cut_append]
    exact left.trans joined
  refine ⟨⟨fun piece member => ?_, rest.isInfix⟩, rest⟩
  rw [cut_append] at member
  obtain before | after := List.mem_append.mp member
  · exact List.infix_append_of_infix_left (contiguous.1 piece before)
  · refine List.IsInfix.trans ?_ joined.isInfix
    rw [← whole]
    exact List.infix_append_of_infix_left (List.infix_of_mem_flatten after)

/-- A whole piece at the head may go. -/
theorem Contiguous.tail {stream piece text : List α}
    (contiguous : Contiguous ends stream (piece ++ text)) (whole : cut ends piece = ([piece], [])) :
    piece <:+: stream ∧ Contiguous ends stream text ∧
      unfinished ends (piece ++ text) = unfinished ends text := by
  have pieces := cut_piece whole text
  obtain ⟨each, left⟩ := contiguous
  simp only [unfinished, pieces] at each left
  refine ⟨each piece List.mem_cons_self, ⟨fun other member => ?_, left⟩, ?_⟩
  · exact each other (List.mem_cons_of_mem piece member)
  · rw [unfinished, pieces]
    rfl

end BallyOS.Library
