/-! Items that are performed one after the other, where after each of them a stop may be heard. -/
namespace BallyOS.Library

/-- What is performed of the items when the first of them is the one of that index, and whether a
stop was heard. -/
def performed (stop : Nat → Bool) : Nat → List α → List α × Bool
  | _, [] => ([], false)
  | index, item :: rest =>
    if stop index then ([item], true)
    else (item :: (performed stop (index + 1) rest).1, (performed stop (index + 1) rest).2)

variable {stop : Nat → Bool}

/-- What is performed of two sequences: the second only when no stop was heard in the first. -/
theorem performed_append (index : Nat) (first second : List α) :
    performed stop index (first ++ second) =
      if (performed stop index first).2 then performed stop index first
      else (first ++ (performed stop (index + first.length) second).1,
        (performed stop (index + first.length) second).2) := by
  induction first generalizing index with
  | nil => rfl
  | cons item first ih =>
    have next : index + (first.length + 1) = index + 1 + first.length := by omega
    rw [List.cons_append, performed, performed, List.length_cons, next]
    split
    · rfl
    · rw [ih]
      split <;> rfl

theorem performed_eq_of_unstopped {index : Nat} {items : List α}
    (unstopped : (performed stop index items).2 = false) :
    performed stop index items = (items, false) := by
  induction items generalizing index with
  | nil => rfl
  | cons item items ih =>
    rw [performed] at unstopped ⊢
    split at unstopped
    · cases unstopped
    · rename_i silent
      rw [if_neg silent, ih unstopped]

/-- Without a stop everything is performed. -/
theorem performed_of_quiet {index : Nat} {items : List α}
    (quiet : ∀ later, index ≤ later → later < index + items.length → stop later = false) :
    performed stop index items = (items, false) := by
  induction items generalizing index with
  | nil => rfl
  | cons item items ih =>
    rw [List.length_cons] at quiet
    have here : ¬stop index = true := by simp [quiet index (Nat.le_refl _) (by omega)]
    rw [performed, if_neg here, ih fun later after within => quiet later (by omega) (by omega)]

/-- With a stop, everything up to the item where it was heard. -/
theorem performed_of_first {index : Nat} {items : List α} {count : Nat}
    (within : count < items.length) (quiet : ∀ earlier < count, stop (index + earlier) = false)
    (heard : stop (index + count) = true) :
    performed stop index items = (items.take (count + 1), true) := by
  induction items generalizing index count with
  | nil => exact absurd within (Nat.not_lt_zero _)
  | cons item items ih =>
    cases count with
    | zero =>
      rw [Nat.add_zero] at heard
      rw [performed, if_pos heard]
      rfl
    | succ count =>
      have here : ¬stop index = true := by
        have silent := quiet 0 (Nat.succ_pos count)
        rw [Nat.add_zero] at silent
        simp [silent]
      have shift : ∀ earlier, index + 1 + earlier = index + (earlier + 1) := fun _ => by omega
      have rested : performed stop (index + 1) items = (items.take (count + 1), true) :=
        ih (Nat.lt_of_succ_lt_succ within)
          (fun earlier before => by
            rw [shift]
            exact quiet (earlier + 1) (Nat.succ_lt_succ before))
          (by rwa [shift])
      rw [performed, if_neg here, rested]
      rfl

end BallyOS.Library
