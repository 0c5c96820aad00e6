import Mathlib.Algebra.Group.Nat.Defs

/-! Fixed-width little-endian integers as bytes, the layout that both a struct
copied by `memcpy` and the wire codecs use on this machine. -/
namespace BallyOS.Library

/-- The low `width` bytes of a value, least significant first. -/
def toBytes : Nat → Nat → List UInt8
  | 0, _ => []
  | width + 1, value => UInt8.ofNat value :: toBytes width (value / 256)

def ofBytes : List UInt8 → Nat
  | [] => 0
  | byte :: rest => byte.toNat + 256 * ofBytes rest

@[simp] theorem length_toBytes (width value : Nat) : (toBytes width value).length = width := by
  induction width generalizing value with
  | zero => rfl
  | succ width ih => simp [toBytes, ih]

theorem ofBytes_toBytes (width value : Nat) :
    ofBytes (toBytes width value) = value % 256 ^ width := by
  induction width generalizing value with
  | zero => simp [toBytes, ofBytes, Nat.mod_one]
  | succ width ih =>
    have low : (UInt8.ofNat value).toNat = value % 256 := by simp
    rw [toBytes, ofBytes, ih, low, Nat.pow_succ', Nat.mod_mul]

end BallyOS.Library
