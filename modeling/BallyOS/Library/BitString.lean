import Mathlib.Algebra.Group.Nat.Defs
import Mathlib.Data.List.Induction
import BallyOS.Library.Blocks

/-! Bit strings, the most significant bit first, and the bytes they are packed in. -/
namespace BallyOS.Library

/-- The low `width` bits of a number. -/
def toBits : Nat → Nat → List Bool
  | 0, _ => []
  | width + 1, value => toBits width (value / 2) ++ [decide (value % 2 = 1)]

def ofBits (bits : List Bool) : Nat := bits.foldl (fun value bit => 2 * value + bit.toNat) 0

/-- The bits of a byte string. -/
def bitsOf (bytes : List UInt8) : List Bool := bytes.flatMap fun byte => toBits 8 byte.toNat

/-- The bytes of a bit string. -/
def octets (bits : List Bool) : List UInt8 :=
  (blocks 8 bits).map fun byte => UInt8.ofNat (ofBits byte)

@[simp] theorem length_toBits (width value : Nat) : (toBits width value).length = width := by
  induction width generalizing value with
  | zero => rfl
  | succ width ih => simp [toBits, ih]

private theorem ofBits_append_bit (bits : List Bool) (bit : Bool) :
    ofBits (bits ++ [bit]) = 2 * ofBits bits + bit.toNat := by
  simp [ofBits]

private theorem ofBits_append (first second : List Bool) :
    ofBits (first ++ second) = ofBits first * 2 ^ second.length + ofBits second := by
  induction second using List.reverseRecOn with
  | nil => simp [ofBits]
  | append_singleton second bit ih =>
    rw [← List.append_assoc, ofBits_append_bit, ofBits_append_bit, ih, List.length_append,
      List.length_singleton, Nat.pow_succ', Nat.mul_add, Nat.mul_left_comm, Nat.add_assoc]

private theorem ofBits_toBits (width value : Nat) : ofBits (toBits width value) = value % 2 ^ width
    := by
  induction width generalizing value with
  | zero => simp [toBits, ofBits, Nat.mod_one]
  | succ width ih =>
    have low : (decide (value % 2 = 1)).toNat = value % 2 := by
      rcases Nat.mod_two_eq_zero_or_one value with even | odd <;> simp [*]
    rw [toBits, ofBits_append_bit, ih, low, Nat.pow_succ', Nat.mod_mul]
    omega

/-- The high bits of a number are those of its quotient. -/
theorem toBits_add (high low value : Nat) :
    toBits (high + low) value = toBits high (value / 2 ^ low) ++ toBits low value := by
  induction low generalizing value with
  | zero => simp [toBits]
  | succ low ih =>
    rw [← Nat.add_assoc, toBits, ih, toBits, Nat.div_div_eq_div_mul, ← Nat.pow_succ',
      List.append_assoc]

/-- Only the low bits count. -/
theorem toBits_mod (width value : Nat) : toBits width (value % 2 ^ width) = toBits width value := by
  induction width generalizing value with
  | zero => rfl
  | succ width ih =>
    have half : value % 2 ^ (width + 1) / 2 = value / 2 % 2 ^ width := by
      rw [Nat.pow_succ', Nat.mod_mul_right_div_self]
    have low : value % 2 ^ (width + 1) % 2 = value % 2 :=
      Nat.mod_mod_of_dvd _ (Nat.pow_succ' ▸ Nat.dvd_mul_right 2 _)
    rw [toBits, toBits, half, low, ih]

@[simp] theorem toBits_zero (width : Nat) : toBits width 0 = List.replicate width false := by
  induction width with
  | zero => rfl
  | succ width ih =>
    rw [toBits, ih, List.replicate_succ']
    rfl

@[simp] theorem bitsOf_append (first second : List UInt8) :
    bitsOf (first ++ second) = bitsOf first ++ bitsOf second := by
  simp [bitsOf]

theorem bitsOf_cons (byte : UInt8) (bytes : List UInt8) :
    bitsOf (byte :: bytes) = toBits 8 byte.toNat ++ bitsOf bytes := by
  simp [bitsOf]

@[simp] theorem length_bitsOf (bytes : List UInt8) : (bitsOf bytes).length = 8 * bytes.length := by
  induction bytes with
  | nil => rfl
  | cons byte bytes ih =>
    rw [bitsOf_cons, List.length_append, length_toBits, ih, List.length_cons]
    omega

theorem bitsOf_drop (bytes : List UInt8) (count : Nat) :
    (bitsOf bytes).drop (8 * count) = bitsOf (bytes.drop count) := by
  induction count generalizing bytes with
  | zero => rfl
  | succ count ih =>
    cases bytes with
    | nil => simp [bitsOf]
    | cons byte bytes =>
      rw [bitsOf_cons, Nat.mul_succ, Nat.add_comm, ← List.drop_drop, List.drop_left' (by simp), ih,
        List.drop_succ_cons]

theorem bitsOf_take (bytes : List UInt8) (count : Nat) :
    (bitsOf bytes).take (8 * count) = bitsOf (bytes.take count) := by
  induction count generalizing bytes with
  | zero => rfl
  | succ count ih =>
    cases bytes with
    | nil => simp [bitsOf]
    | cons byte bytes =>
      have eight : (toBits 8 byte.toNat).length = 8 := length_toBits 8 _
      rw [bitsOf_cons, Nat.mul_succ, Nat.add_comm, List.take_append, eight,
        List.take_of_length_le (by omega), Nat.add_sub_cancel_left, ih, List.take_succ_cons,
        bitsOf_cons]

private theorem ofBits_bitsOf_concat (bytes : List UInt8) (byte : UInt8) :
    ofBits (bitsOf (bytes ++ [byte])) = ofBits (bitsOf bytes) * 2 ^ 8 + byte.toNat := by
  have single : bitsOf [byte] = toBits 8 byte.toNat := by simp [bitsOf]
  rw [bitsOf_append, ofBits_append, single, length_toBits, ofBits_toBits,
    Nat.mod_eq_of_lt byte.toNat_lt]

theorem ofBits_bitsOf_four (b0 b1 b2 b3 : UInt8) : ofBits (bitsOf [b0, b1, b2, b3]) =
    ((b0.toNat * 2 ^ 8 + b1.toNat) * 2 ^ 8 + b2.toNat) * 2 ^ 8 + b3.toNat := by
  have last := ofBits_bitsOf_concat [b0, b1, b2] b3
  have third := ofBits_bitsOf_concat [b0, b1] b2
  have second := ofBits_bitsOf_concat [b0] b1
  have first := ofBits_bitsOf_concat [] b0
  have none : ofBits (bitsOf []) = 0 := rfl
  simp only [List.cons_append, List.nil_append] at last third second first
  rw [last, third, second, first, none, Nat.zero_mul, Nat.zero_add]

/-- The bytes of a number, the highest first. -/
def bigEndian : Nat → Nat → List UInt8
  | 0, _ => []
  | count + 1, value => bigEndian count (value / 2 ^ 8) ++ [UInt8.ofNat value]

theorem bitsOf_bigEndian (count value : Nat) :
    bitsOf (bigEndian count value) = toBits (8 * count) value := by
  induction count generalizing value with
  | zero => rfl
  | succ count ih =>
    have low : (UInt8.ofNat value).toNat = value % 2 ^ 8 := UInt8.toNat_ofNat'
    have single : bitsOf [UInt8.ofNat value] = toBits 8 value := by
      rw [bitsOf_cons, low, toBits_mod]
      exact List.append_nil _
    rw [bigEndian, bitsOf_append, ih, single, Nat.mul_succ, toBits_add]

theorem bigEndian_eq_map (count value : Nat) : bigEndian count value =
    (List.range count).map fun i => UInt8.ofNat (value / 2 ^ (8 * (count - 1 - i))) := by
  induction count generalizing value with
  | zero => rfl
  | succ count ih =>
    rw [bigEndian, ih, List.range_succ, List.map_append]
    congr 1
    · refine List.map_congr_left fun i member => ?_
      have below := List.mem_range.mp member
      have places : 8 + 8 * (count - 1 - i) = 8 * (count + 1 - 1 - i) := by omega
      rw [Nat.div_div_eq_div_mul, ← Nat.pow_add, places]
    · simp

/-- Packing the bits of bytes gives the bytes. -/
theorem octets_bitsOf (bytes : List UInt8) : octets (bitsOf bytes) = bytes := by
  induction bytes with
  | nil => rfl
  | cons byte bytes ih =>
    have eight : (toBits 8 byte.toNat).length = 8 := length_toBits 8 _
    have value : UInt8.ofNat (ofBits (toBits 8 byte.toNat)) = byte := by
      rw [ofBits_toBits, Nat.mod_eq_of_lt byte.toNat_lt, UInt8.ofNat_toNat]
    unfold octets at ih ⊢
    rw [bitsOf_cons, blocks_append (by decide) eight, List.map_cons, ih, value]

/-- Only the low bytes count. -/
theorem bigEndian_mod (count value : Nat) :
    bigEndian count (value % 2 ^ (8 * count)) = bigEndian count value := by
  rw [← octets_bitsOf (bigEndian count value), bitsOf_bigEndian, ← toBits_mod, ← bitsOf_bigEndian,
    octets_bitsOf]

theorem bitsOf_replicate_zero (count : Nat) :
    bitsOf (List.replicate count 0) = List.replicate (8 * count) false := by
  induction count with
  | zero => rfl
  | succ count ih =>
    rw [List.replicate_succ, bitsOf_cons, ih, Nat.mul_succ, Nat.add_comm, List.replicate_add]
    rfl

/-- The blocks of the bits of a byte string are the bits of its blocks. -/
theorem blocks_bitsOf (size : Nat) (positive : 0 < size) (bytes : List UInt8) :
    blocks (8 * size) (bitsOf bytes) = (blocks size bytes).map bitsOf := by
  by_cases short : bytes.length < size
  · have few : 8 * bytes.length < 8 * size := by omega
    simp [blocks, Nat.div_eq_of_lt short, Nat.div_eq_of_lt few]
  · have front : (bytes.take size).length = size := List.length_take_of_le (by omega)
    rw [← List.take_append_drop size bytes, bitsOf_append, blocks_append positive front,
      blocks_append (by omega) (by rw [length_bitsOf, front]), List.map_cons,
      blocks_bitsOf size positive]
termination_by bytes.length
decreasing_by simp only [List.length_drop]; omega

end BallyOS.Library
