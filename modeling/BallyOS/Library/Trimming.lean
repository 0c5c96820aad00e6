import Mathlib.Data.List.DropRight

/-! A text without the blanks at its ends. -/
namespace BallyOS.Library

variable {blank : α → Bool}

def trimmed (blank : α → Bool) (text : List α) : List α :=
  (text.dropWhile blank).rdropWhile blank

/-- A text that begins and ends with what is not blank. -/
structure Solid (blank : α → Bool) (text : List α) : Prop where
  first : ∀ c ∈ text.head?, blank c = false
  last : ∀ c ∈ text.getLast?, blank c = false

private theorem trimmed_eq {text : List α} (solid : Solid blank text) (some : text ≠ [])
    {front back : List α} (before : ∀ c ∈ front, blank c = true)
    (behind : ∀ c ∈ back, blank c = true) : trimmed blank (front ++ text ++ back) = text := by
  have begins : (front ++ text ++ back).dropWhile blank = text ++ back := by
    rw [List.append_assoc, List.dropWhile_append_of_pos before]
    cases text with
    | nil => exact absurd rfl some
    | cons c rest =>
      exact List.dropWhile_cons_of_neg (by simp [solid.first c rfl])
  have ends : (text ++ back).rdropWhile blank = text.rdropWhile blank := by
    unfold List.rdropWhile
    rw [List.reverse_append, List.dropWhile_append_of_pos fun c member =>
      behind c (List.mem_reverse.mp member)]
  rw [trimmed, begins, ends, List.rdropWhile_eq_self_iff]
  intro held
  simp [solid.last _ (List.getLast?_eq_some_getLast held)]

private theorem solid_trimmed (text : List α) : Solid blank (trimmed blank text) where
  first := by
    intro c first
    obtain ⟨rest, split⟩ := List.head?_eq_some_iff.mp first
    have front : trimmed blank text <+: text.dropWhile blank := List.rdropWhile_prefix ..
    rw [split] at front
    obtain ⟨more, whole⟩ := front
    have head : (text.dropWhile blank).head? = some c := by
      rw [← whole]
      rfl
    have none := List.head?_dropWhile_not blank text
    rw [head] at none
    simpa using none
  last := by
    intro c last
    obtain ⟨held, rfl⟩ := List.mem_getLast?_eq_getLast last
    exact Bool.eq_false_iff.mpr (List.rdropWhile_last_not blank (text.dropWhile blank) held)

theorem dropWhile_trimmed (text : List α) :
    (trimmed blank text).dropWhile blank = trimmed blank text := by
  cases kept : trimmed blank text with
  | nil => rfl
  | cons c rest =>
    have solid : blank c = false := (@solid_trimmed α blank text).first c (by rw [kept]; rfl)
    exact List.dropWhile_cons_of_neg (by simp [solid])

/-- The blanks, what is between them, and the blanks. -/
theorem trimmed_split (text : List α) : ∃ back, text = text.takeWhile blank ++
    trimmed blank text ++ back ∧ ∀ c ∈ back, blank c = true := by
  refine ⟨(text.dropWhile blank).rtakeWhile blank, ?_, fun c member =>
    List.mem_rtakeWhile_imp member⟩
  rw [List.append_assoc, trimmed, List.rdropWhile_append_rtakeWhile,
    List.takeWhile_append_dropWhile]

/-- The text of a longer line goes on from that of its front. -/
theorem trimmed_append (text more : List α) (some : trimmed blank text ≠ []) :
    trimmed blank text <+: trimmed blank (text ++ more) := by
  obtain ⟨back, split, -⟩ := @trimmed_split α blank text
  have solid : Solid blank (trimmed blank text) := solid_trimmed text
  have joined : Solid blank (trimmed blank text ++ (back ++ more).rdropWhile blank) := by
    refine ⟨fun c first => ?_, fun c last => ?_⟩
    · rw [List.head?_append_of_ne_nil _ some] at first
      exact solid.first c first
    · cases grown : (back ++ more).rdropWhile blank with
      | nil =>
        rw [grown, List.append_nil] at last
        exact solid.last c last
      | cons d rest =>
        have held : (back ++ more).rdropWhile blank ≠ [] := by simp [grown]
        rw [List.getLast?_append_of_ne_nil _ held] at last
        obtain ⟨held, rfl⟩ := List.mem_getLast?_eq_getLast last
        simpa using List.rdropWhile_last_not blank (back ++ more) held
  have whole : text ++ more = text.takeWhile blank ++
      (trimmed blank text ++ (back ++ more).rdropWhile blank) ++
        (back ++ more).rtakeWhile blank := by
    conv_lhs => rw [split]
    simp only [List.append_assoc, List.rdropWhile_append_rtakeWhile]
  rw [whole, trimmed_eq joined (by simp [some]) (fun c member => List.mem_takeWhile_imp member)
    fun c member => List.mem_rtakeWhile_imp member]
  exact List.prefix_append ..

/-- Anything solid may stand where the blanks behind were. -/
theorem trimmed_refilled {text filler : List α} (some : trimmed blank text ≠ [])
    (solid : ∀ c ∈ filler, blank c = false) :
    trimmed blank (text.takeWhile blank ++ trimmed blank text ++ filler) =
      trimmed blank text ++ filler := by
  have ends : Solid blank (trimmed blank text) := solid_trimmed text
  have joined : Solid blank (trimmed blank text ++ filler) := by
    refine ⟨fun c first => ?_, fun c last => ?_⟩
    · rw [List.head?_append_of_ne_nil _ some] at first
      exact ends.first c first
    · cases filler with
      | nil =>
        rw [List.append_nil] at last
        exact ends.last c last
      | cons d rest =>
        rw [List.getLast?_append_of_ne_nil _ (List.cons_ne_nil d rest)] at last
        exact solid c (List.mem_of_getLast? last)
  have front : ∀ c ∈ text.takeWhile blank, blank c = true :=
    fun c member => List.mem_takeWhile_imp member
  have none : ∀ c ∈ ([] : List α), blank c = true := nofun
  have whole := trimmed_eq joined (by simp [some]) front none
  rwa [List.append_nil, ← List.append_assoc] at whole

end BallyOS.Library
