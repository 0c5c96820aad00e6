import Mathlib.Data.List.Basic
import Mathlib.Data.List.DropRight

/-! A text cut at its delimiters, as `strtok` does: the tokens between them, the
empty ones left out. -/
namespace BallyOS.Library

/-- A token that ended, unless it is empty. -/
def closeToken : List α → List (List α)
  | [] => []
  | c :: rest => [c :: rest]

/-- The tokens of a text, `token` being what of the first was read already. -/
def tokensFrom (delimiter : α → Bool) : List α → List α → List (List α)
  | token, [] => closeToken token
  | token, c :: text =>
    if delimiter c then closeToken token ++ tokensFrom delimiter [] text
    else tokensFrom delimiter (token ++ [c]) text

def tokens (delimiter : α → Bool) (text : List α) : List (List α) :=
  tokensFrom delimiter [] text

variable {delimiter : α → Bool}

private theorem tokensFrom_append {line : List α} (clean : ∀ c ∈ line, delimiter c = false)
    (token text : List α) :
    tokensFrom delimiter token (line ++ text) = tokensFrom delimiter (token ++ line) text := by
  induction line generalizing token with
  | nil => simp
  | cons c rest ih =>
    have solid : delimiter c = false := clean c List.mem_cons_self
    rw [List.cons_append, tokensFrom, solid, if_neg Bool.false_ne_true,
      ih (fun other member => clean other (List.mem_cons_of_mem c member)), List.append_assoc]
    rfl

/-- A line with its end is one token. -/
theorem tokens_line {line : List α} (clean : ∀ c ∈ line, delimiter c = false)
    (solid : line ≠ []) (ends : delimiter c = true) (text : List α) :
    tokens delimiter (line ++ c :: text) = line :: tokens delimiter text := by
  unfold tokens
  rw [tokensFrom_append clean, List.nil_append, tokensFrom, if_pos ends]
  cases line with
  | nil => exact absurd rfl solid
  | cons d rest => rfl

theorem tokens_blank (ends : delimiter c = true) (text : List α) :
    tokens delimiter (c :: text) = tokens delimiter text := by
  unfold tokens
  rw [tokensFrom, if_pos ends]
  rfl

theorem closeToken_mem {token : List α} (member : found ∈ closeToken token) : found = token := by
  cases token with
  | nil => exact absurd member List.not_mem_nil
  | cons c rest => exact List.mem_singleton.mp member

private theorem tokensFrom_clean {token text : List α} (before : ∀ c ∈ token, delimiter c = false) :
    ∀ found ∈ tokensFrom delimiter token text, ∀ c ∈ found, delimiter c = false := by
  induction text generalizing token with
  | nil =>
    intro found member
    rw [closeToken_mem member]
    exact before
  | cons c text ih =>
    intro found member
    rw [tokensFrom] at member
    split at member
    · rcases List.mem_append.mp member with ended | later
      · rw [closeToken_mem ended]
        exact before
      · exact ih (fun _ none => absurd none List.not_mem_nil) found later
    · rename_i solid
      refine ih (fun d within => ?_) found member
      rcases List.mem_append.mp within with old | new
      · exact before d old
      · cases List.mem_singleton.mp new
        simpa using solid

/-- No token holds a delimiter. -/
theorem tokens_clean (text : List α) :
    ∀ token ∈ tokens delimiter text, ∀ c ∈ token, delimiter c = false :=
  tokensFrom_clean fun _ none => absurd none List.not_mem_nil

private theorem tokensFrom_subset {token text whole : List α} (before : token ⊆ whole)
    (within : text ⊆ whole) : ∀ found ∈ tokensFrom delimiter token text, found ⊆ whole := by
  induction text generalizing token with
  | nil =>
    intro found member
    rw [closeToken_mem member]
    exact before
  | cons c text ih =>
    obtain ⟨first, rest⟩ := List.cons_subset.mp within
    intro found member
    rw [tokensFrom] at member
    split at member
    · rcases List.mem_append.mp member with ended | later
      · rw [closeToken_mem ended]
        exact before
      · exact ih (List.nil_subset _) rest found later
    · refine ih (List.append_subset.mpr ⟨before, ?_⟩) rest found member
      exact List.cons_subset.mpr ⟨first, List.nil_subset _⟩

theorem tokens_subset {text token : List α} (member : token ∈ tokens delimiter text) :
    token ⊆ text :=
  tokensFrom_subset (List.nil_subset _) (List.Subset.refl _) token member

/-! ### A text that is continued -/

private theorem tokensFrom_end (ends : delimiter d = true) (token text more : List α) :
    tokensFrom delimiter token (text ++ d :: more) =
      tokensFrom delimiter token text ++ tokens delimiter more := by
  induction text generalizing token with
  | nil =>
    simp only [List.nil_append, tokensFrom, if_pos ends]
    rfl
  | cons c text ih =>
    rw [List.cons_append, tokensFrom, tokensFrom]
    split
    · rw [ih, List.append_assoc]
    · exact ih _

theorem tokensFrom_first (token text : List α) :
    tokensFrom delimiter token text =
      closeToken (token ++ text.takeWhile (!delimiter ·)) ++
        tokens delimiter (text.dropWhile (!delimiter ·)) := by
  induction text generalizing token with
  | nil => simp [tokens, tokensFrom, closeToken]
  | cons c text ih =>
    rw [tokensFrom]
    split
    · rename_i ends
      rw [List.takeWhile_cons_of_neg (by simp [ends]), List.dropWhile_cons_of_neg (by simp [ends]),
        List.append_nil, tokens_blank ends]
      rfl
    · rename_i solid
      rw [ih, List.takeWhile_cons_of_pos (by simp [solid]),
        List.dropWhile_cons_of_pos (by simp [solid]), List.append_assoc]
      rfl

/-- The tokens of a text with more behind it: its last line, unless it is ended, grows by
what is in front of the first delimiter. -/
theorem tokens_append (text more : List α) :
    tokens delimiter (text ++ more) =
      tokens delimiter (text.rdropWhile (!delimiter ·)) ++
        closeToken (text.rtakeWhile (!delimiter ·) ++ more.takeWhile (!delimiter ·)) ++
          tokens delimiter (more.dropWhile (!delimiter ·)) := by
  have solid : ∀ c ∈ text.rtakeWhile (!delimiter ·), (!delimiter c) = true :=
    fun c member => List.mem_rtakeWhile_imp (p := (!delimiter ·)) member
  have grown : tokens delimiter (text.rtakeWhile (!delimiter ·) ++ more) =
      closeToken (text.rtakeWhile (!delimiter ·) ++ more.takeWhile (!delimiter ·)) ++
        tokens delimiter (more.dropWhile (!delimiter ·)) := by
    rw [tokens, tokensFrom_first, List.takeWhile_append_of_pos solid,
      List.dropWhile_append_of_pos solid, List.nil_append]
  rw [List.append_assoc, ← grown]
  have whole : text.rdropWhile (!delimiter ·) ++ text.rtakeWhile (!delimiter ·) = text :=
    List.rdropWhile_append_rtakeWhile
  conv_lhs => rw [← whole, List.append_assoc]
  rcases List.eq_nil_or_concat (text.rdropWhile (!delimiter ·)) with none | ⟨front, d, parted⟩
  · rw [none]
    rfl
  · have ends : delimiter d = true := by
      have last := List.rdropWhile_last_not (!delimiter ·) text (by rw [parted]; simp)
      simpa [parted] using last
    rw [parted, List.concat_eq_append, List.append_assoc, List.singleton_append]
    unfold tokens
    rw [tokensFrom_end ends, tokensFrom_end ends]
    simp [tokens, tokensFrom, closeToken]

theorem tokens_split (text : List α) :
    tokens delimiter text =
      tokens delimiter (text.rdropWhile (!delimiter ·)) ++
        closeToken (text.rtakeWhile (!delimiter ·)) := by
  have split := @tokens_append α delimiter text []
  rw [List.append_nil, List.takeWhile_nil, List.append_nil, List.dropWhile_nil] at split
  rw [split]
  exact List.append_nil _

/-- A text has no fewer tokens than any front of it. -/
theorem tokens_length_le {front text : List α} (leads : front <+: text) :
    (tokens delimiter front).length ≤ (tokens delimiter text).length := by
  obtain ⟨more, rfl⟩ := leads
  rw [tokens_split front, tokens_append, List.append_assoc, List.length_append, List.length_append]
  apply Nat.add_le_add_left
  rw [List.length_append]
  apply Nat.le_add_right_of_le
  cases front.rtakeWhile (!delimiter ·) with
  | nil => exact Nat.zero_le _
  | cons c rest => exact Nat.le_refl _

end BallyOS.Library
