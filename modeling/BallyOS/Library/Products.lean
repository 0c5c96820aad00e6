import BallyOS.Library.Binary32

/-! Products of binary32 values, and which of them are zero. -/
namespace BallyOS.Library

def Binary32.isZero : Binary32 → Bool
  | finite _ magnitude => magnitude.units = 0
  | _ => false

/-- A product, rounded; a zero times an infinity is no number. -/
def Binary32.mul : Binary32 → Binary32 → Binary32
  | finite s m, finite t n => ofRatio (s ^^ t) (m.units * n.units) (2 ^ 149 * 2 ^ 149)
  | infinite s, infinite t => infinite (s ^^ t)
  | infinite s, finite t n => if n.units = 0 then nan else infinite (s ^^ t)
  | finite s m, infinite t => if m.units = 0 then nan else infinite (s ^^ t)
  | _, _ => nan

private theorem spacing_le (positive : 0 < units) : spacing units ≤ units := by
  unfold spacing
  calc 2 ^ (units.log2 - 23) ≤ 2 ^ units.log2 := Nat.pow_le_pow_right (by decide) (by omega)
    _ ≤ units := Nat.log2_self_le (by omega)

private theorem div_le_roundEven (a b : Nat) : a / b ≤ roundEven a b := by
  unfold roundEven
  split
  · exact Nat.le_refl _
  · split <;> omega

/-- Rounding to 24 bits keeps at least half of what is no less than the smallest value. -/
theorem le_nearestUnits {a b : Nat} (positive : 0 < b) (large : b ≤ a * 2 ^ 149) :
    a * 2 ^ 149 < 2 * (nearestUnits a b * b) := by
  unfold nearestUnits
  generalize a * 2 ^ 149 = whole at large
  have some : 0 < whole / b := Nat.div_pos large positive
  have fine := spacing_le some
  have apart : 0 < spacing (whole / b) := Nat.two_pow_pos _
  generalize spacing (whole / b) = step at fine apart
  dsimp only
  have unit : b * step ≤ whole :=
    Nat.le_trans (Nat.mul_le_mul_left b fine) (Nat.mul_div_le whole b)
  have solid : 0 < b * step := Nat.mul_pos positive apart
  have down : b * step ≤ b * step * (whole / (b * step)) :=
    Nat.le_mul_of_pos_right _ (Nat.div_pos unit solid)
  have near : b * step * (whole / (b * step)) ≤ b * step * roundEven whole (b * step) :=
    Nat.mul_le_mul_left _ (div_le_roundEven whole (b * step))
  have parts := Nat.div_add_mod whole (b * step)
  have rest := Nat.mod_lt whole solid
  have same : roundEven whole (b * step) * step * b = b * step * roundEven whole (b * step) := by
    ring
  omega

private theorem isZero_ofRatio (negative : Bool) (a b : Nat) :
    (Binary32.ofRatio negative a b).isZero = decide (nearestUnits a b = 0) := by
  unfold Binary32.ofRatio
  split
  · rfl
  · rename_i large
    have some : nearestUnits a b ≠ 0 := by omega
    simp [Binary32.isZero, some]

/-- A ratio that is no less than the smallest value is not rounded to zero. -/
theorem isZero_ofRatio_large (negative : Bool) {a b : Nat} (positive : 0 < b)
    (large : b ≤ a * 2 ^ 149) : (Binary32.ofRatio negative a b).isZero = false := by
  have kept := le_nearestUnits positive large
  rw [isZero_ofRatio, decide_eq_false_iff_not]
  intro none
  rw [none] at kept
  omega

/-- Rounded ratios that are not too small have no zero product. -/
theorem isZero_mul_large (s t : Bool) {a b c d : Nat}
    (large : 2 ^ 149 ≤ nearestUnits a b * nearestUnits c d) :
    ((Binary32.ofRatio s a b).mul (Binary32.ofRatio t c d)).isZero = false := by
  unfold Binary32.ofRatio
  split
  · split
    · apply isZero_ofRatio_large _ (Nat.mul_pos (Nat.two_pow_pos _) (Nat.two_pow_pos _))
      exact Nat.mul_le_mul_right _ large
    · unfold Binary32.mul
      dsimp only
      split <;> rfl
  · split
    · unfold Binary32.mul
      dsimp only
      split <;> rfl
    · rfl

end BallyOS.Library
