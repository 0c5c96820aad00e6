import Mathlib.Data.List.Basic

/-! A list cut into blocks of one size, and a buffer that takes the items one at a
time and folds each block into a state as it fills. Both come to the same. -/
namespace BallyOS.Library

/-- The whole blocks of a list; a short last one is left out. -/
def blocks {Item : Type} (size : Nat) (items : List Item) : List (List Item) :=
  (List.range (items.length / size)).map fun i => (items.drop (size * i)).take size

/-- What was folded, and the items of the block that is not full. -/
structure Filling (State Item : Type) where
  state : State
  pending : List Item := []

def Filling.push {State Item : Type} (size : Nat) (fold : State → List Item → State)
    (filling : Filling State Item) (item : Item) : Filling State Item :=
  let pending := filling.pending ++ [item]
  if pending.length = size then { state := fold filling.state pending }
  else { filling with pending }

@[simp] theorem blocks_nil {Item : Type} (size : Nat) :
    blocks size ([] : List Item) = [] := by
  simp [blocks]

theorem blocks_append {Item : Type} {size : Nat} {front : List Item} (positive : 0 < size)
    (whole : front.length = size) (rest : List Item) :
    blocks size (front ++ rest) = front :: blocks size rest := by
  have count : (front ++ rest).length / size = rest.length / size + 1 := by
    rw [List.length_append, whole, Nat.add_comm, Nat.add_div_right _ positive]
  unfold blocks
  rw [count, List.range_succ_eq_map, List.map_cons, List.map_map]
  congr 1
  · rw [Nat.mul_zero, List.drop_zero, ← whole, List.take_left]
  · apply List.map_congr_left
    intro i _
    have past : size * (i + 1) = front.length + size * i := by
      rw [whole, Nat.mul_succ, Nat.add_comm]
    simp only [Function.comp_apply, Nat.succ_eq_add_one]
    rw [past, List.drop_append, List.drop_eq_nil_of_le (by omega), List.nil_append]
    congr 2
    omega

section
variable {State Item : Type} {size : Nat} {fold : State → List Item → State}

/-- Items that leave the block short only wait. -/
theorem foldl_push_short {filling : Filling State Item} {items : List Item}
    (short : filling.pending.length + items.length < size) :
    items.foldl (Filling.push size fold) filling =
      { filling with pending := filling.pending ++ items } := by
  induction items generalizing filling with
  | nil => simp
  | cons item rest ih =>
    rw [List.length_cons] at short
    have one : (filling.pending ++ [item]).length = filling.pending.length + 1 := by simp
    have waits : filling.push size fold item =
        { filling with pending := filling.pending ++ [item] } := by
      unfold Filling.push
      rw [if_neg (by omega)]
    have later : (filling.pending ++ [item]).length + rest.length < size := by omega
    rw [List.foldl_cons, waits, ih later, List.append_assoc, List.singleton_append]

/-- The item that fills the block folds it. -/
theorem foldl_push_block {filling : Filling State Item} {items : List Item}
    (some : items ≠ []) (fills : filling.pending.length + items.length = size) :
    items.foldl (Filling.push size fold) filling =
      { state := fold filling.state (filling.pending ++ items) } := by
  obtain ⟨front, last, rfl⟩ := (List.eq_nil_or_concat' items).resolve_left some
  rw [List.length_append, List.length_singleton] at fills
  have waits : front.foldl (Filling.push size fold) filling =
      { filling with pending := filling.pending ++ front } := foldl_push_short (by omega)
  have full : (filling.pending ++ front ++ [last]).length = size := by
    simp only [List.length_append, List.length_singleton]
    omega
  rw [List.foldl_append, waits, List.foldl_cons, List.foldl_nil]
  unfold Filling.push
  rw [if_pos full, List.append_assoc]

/-- Items that make whole blocks are folded block by block. -/
theorem foldl_push_blocks (positive : 0 < size) (state : State) (items : List Item)
    (whole : items.length % size = 0) :
    items.foldl (Filling.push size fold) { state } =
      { state := (blocks size items).foldl fold state } := by
  by_cases none : items.length = 0
  · rw [List.length_eq_zero_iff.mp none, blocks_nil]
    rfl
  · have enough : size ≤ items.length := by
      by_contra short
      rw [Nat.mod_eq_of_lt (Nat.lt_of_not_le short)] at whole
      contradiction
    have front : (items.take size).length = size := List.length_take_of_le enough
    have solid : items.take size ≠ [] := List.ne_nil_of_length_pos (by omega)
    have rest : (items.drop size).length % size = 0 := by
      rw [List.length_drop, ← Nat.mod_eq_sub_mod enough]
      exact whole
    have filled : (items.take size).foldl (Filling.push size fold) { state } =
        { state := fold state (items.take size) } :=
      foldl_push_block solid (by rw [List.length_nil, Nat.zero_add, front])
    rw [← List.take_append_drop size items, List.foldl_append, filled,
      blocks_append positive front, List.foldl_cons]
    exact foldl_push_blocks positive _ _ rest
termination_by items.length
decreasing_by simp only [List.length_drop]; omega

end

end BallyOS.Library
