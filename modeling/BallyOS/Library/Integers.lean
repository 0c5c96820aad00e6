import Mathlib.Algebra.Order.Ring.Int
import BallyOS.Library.ByteText

/-! The integer that a text begins with, as `atoi` and `strtoul` with base 10 find it where `int`
and `long` have thirty-two bits: blanks, a sign and as many digits as there are. -/
namespace BallyOS.Library

/-- The sign, the digits and what is behind them. -/
structure Scan where
  negative : Bool
  digits : List UInt8
  rest : List UInt8
deriving Repr, DecidableEq

def scan (text : List UInt8) : Scan :=
  let text := text.dropWhile isBlankByte
  let unsigned := if text.head? = some 45 ∨ text.head? = some 43 then text.drop 1 else text
  ⟨decide (text.head? = some 45), unsigned.takeWhile isDecimalDigit,
    unsigned.dropWhile isDecimalDigit⟩

/-- `atoi`, by a `strtol` that saturates. -/
def atoi (text : List UInt8) : Int32 :=
  let value : Int := decimalValue (scan text).digits
  Int32.ofInt (if (scan text).negative then max (-2147483648) (-value) else min 2147483647 value)

/-- `strtoul` with what it leaves at the end pointer, which is everything when there is no digit. -/
def strtoulEnd (text : List UInt8) : UInt32 × List UInt8 :=
  (strtoulDecimal text, if (scan text).digits = [] then text else (scan text).rest)

/-- A text that begins with digits is scanned to the end of them. -/
theorem scan_digits {digits rest : List UInt8} (some : digits ≠ [])
    (decimal : ∀ c ∈ digits, isDecimalDigit c = true)
    (ends : ∀ c ∈ rest.head?, isDecimalDigit c = false) :
    scan (digits ++ rest) = ⟨false, digits, rest⟩ := by
  have behind : rest.takeWhile isDecimalDigit = [] ∧ rest.dropWhile isDecimalDigit = rest := by
    cases rest with
    | nil => exact ⟨rfl, rfl⟩
    | cons c rest =>
      have other : ¬isDecimalDigit c = true := by simp [ends c rfl]
      exact ⟨List.takeWhile_cons_of_neg other, List.dropWhile_cons_of_neg other⟩
  have taken : (digits ++ rest).takeWhile isDecimalDigit = digits := by
    rw [List.takeWhile_append_of_pos decimal, behind.1, List.append_nil]
  have left : (digits ++ rest).dropWhile isDecimalDigit = rest := by
    rw [List.dropWhile_append_of_pos decimal, behind.2]
  cases digits with
  | nil => exact absurd rfl some
  | cons c digits =>
    have digit := decimal c List.mem_cons_self
    have begins : ((c :: digits) ++ rest).dropWhile isBlankByte = (c :: digits) ++ rest :=
      List.dropWhile_cons_of_neg (by simp [not_isBlankByte_of_digit digit])
    have minus : ¬((c :: digits) ++ rest).head? = Option.some 45 := fun same =>
      ne_of_digit digit (by decide) (Option.some.inj same)
    have plus : ¬((c :: digits) ++ rest).head? = Option.some 43 := fun same =>
      ne_of_digit digit (by decide) (Option.some.inj same)
    simp only [scan, begins, if_neg (not_or.mpr ⟨minus, plus⟩), taken, left,
      decide_eq_false minus]

theorem toInt_atoi_digits {digits rest : List UInt8} (some : digits ≠ [])
    (decimal : ∀ c ∈ digits, isDecimalDigit c = true)
    (ends : ∀ c ∈ rest.head?, isDecimalDigit c = false) :
    (atoi (digits ++ rest)).toInt = min 2147483647 (decimalValue digits : Int) := by
  rw [atoi, scan_digits some decimal ends]
  simp only [Bool.false_eq_true, if_false]
  exact Int32.toInt_ofInt_of_le (by omega) (by omega)

theorem toNat_atoi_digits {digits : List UInt8} (some : digits ≠ [])
    (decimal : ∀ c ∈ digits, isDecimalDigit c = true) :
    (atoi digits).toUInt32.toNat = min 2147483647 (decimalValue digits) := by
  have whole := @toInt_atoi_digits digits [] some decimal (by simp)
  rw [List.append_nil] at whole
  have positive : (0 : Int32) ≤ atoi digits := by
    have zero : (0 : Int32).toInt = 0 := rfl
    rw [Int32.le_iff_toInt_le, whole, zero]
    omega
  rw [Int32.toNat_toUInt32_of_le positive, Int32.toNatClampNeg, whole]
  omega

theorem toUInt32_eq_zero_iff {value : Int32} : value.toUInt32 = 0 ↔ value = 0 := by
  constructor
  · intro none
    rw [← Int32.toInt32_toUInt32 value, none]
    rfl
  · rintro rfl
    rfl

/-- The digits that a text begins with. -/
theorem digits_split {text : List UInt8} (starts : isDecimalDigit (text.headD 0) = true) :
    ∃ digits rest, text = digits ++ rest ∧ digits ≠ [] ∧
      (∀ c ∈ digits, isDecimalDigit c = true) ∧ ∀ c ∈ rest.head?, isDecimalDigit c = false := by
  refine ⟨text.takeWhile isDecimalDigit, text.dropWhile isDecimalDigit,
    List.takeWhile_append_dropWhile.symm, ?_, fun c => List.mem_takeWhile_imp, ?_⟩
  · cases text with
    | nil => exact absurd starts (by decide)
    | cons c rest =>
      have digit : isDecimalDigit c = true := starts
      rw [List.takeWhile_cons_of_pos digit]
      exact List.cons_ne_nil c _
  · intro c head
    have behind := List.head?_dropWhile_not isDecimalDigit text
    rw [head] at behind
    exact behind

end BallyOS.Library
