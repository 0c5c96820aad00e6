import Mathlib.Algebra.Group.Nat.Defs
import Mathlib.Data.List.TakeWhile
import BallyOS.Library.Numeral

/-! Texts as bytes: C strings in a buffer, a text parted at the first separator, and
decimal numbers as `%lu` writes them and as `strtoul` with base 10 reads them on a 32-bit
`long`. -/
namespace BallyOS.Library

def ascii (text : String) : List UInt8 := text.toList.map fun c => UInt8.ofNat c.toNat

/-- What C sees of a buffer: up to the first NUL. -/
def untilNul (buffer : List UInt8) : List UInt8 := buffer.takeWhile (· ≠ 0)

theorem untilNul_of_none {buffer : List UInt8} (none : (0 : UInt8) ∉ buffer) :
    untilNul buffer = buffer := by
  refine List.takeWhile_eq_self_iff.mpr fun c member => decide_eq_true ?_
  rintro rfl
  exact none member

theorem nul_not_mem_untilNul (buffer : List UInt8) : (0 : UInt8) ∉ untilNul buffer := by
  intro member
  have solid : decide ((0 : UInt8) ≠ 0) = true :=
    List.mem_takeWhile_imp (p := fun c => decide (c ≠ 0)) member
  exact absurd rfl (of_decide_eq_true solid)

/-- What is behind a text is not seen when it begins with a NUL. -/
theorem untilNul_append (text : List UInt8) {rest : List UInt8} (ends : ∀ c ∈ rest.head?, c = 0) :
    untilNul (text ++ rest) = untilNul text := by
  unfold untilNul
  induction text with
  | nil =>
    cases rest with
    | nil => rfl
    | cons c rest => exact List.takeWhile_cons_of_neg (by simp [ends c rfl])
  | cons c text ih => rw [List.cons_append, List.takeWhile_cons, List.takeWhile_cons, ih]

/-! ### Letters -/

/-- `toupper`. -/
def toUpperByte (c : UInt8) : UInt8 := if 97 ≤ c ∧ c ≤ 122 then c - 32 else c

/-- `strcasecmp` finds no difference. -/
def sameLetters (text word : List UInt8) : Bool := text.map toUpperByte = word.map toUpperByte

/-! ### The first separator -/

/-- What is before the first separator and what is behind it. -/
def splitAtFirst [DecidableEq α] (separator : α) : List α → Option (List α × List α)
  | [] => none
  | c :: text =>
    if c = separator then some ([], text)
    else (splitAtFirst separator text).map fun (front, back) => (c :: front, back)

variable [DecidableEq α] {separator : α}

theorem splitAtFirst_append {front : List α} (clean : separator ∉ front) (back : List α) :
    splitAtFirst separator (front ++ separator :: back) = some (front, back) := by
  induction front with
  | nil => exact if_pos rfl
  | cons c front ih =>
    have other : c ≠ separator := by
      rintro rfl
      exact clean List.mem_cons_self
    rw [List.cons_append, splitAtFirst, if_neg other,
      ih fun member => clean (List.mem_cons_of_mem c member)]
    rfl

/-- A text is parted in one way: there is the separator, and none before it. -/
theorem splitAtFirst_eq_some {text front back : List α} :
    splitAtFirst separator text = some (front, back) ↔
      text = front ++ separator :: back ∧ separator ∉ front := by
  constructor
  · intro parted
    induction text generalizing front with
    | nil => cases parted
    | cons c text ih =>
      rw [splitAtFirst] at parted
      split at parted
      · rename_i same
        cases parted
        exact ⟨by rw [same]; rfl, List.not_mem_nil⟩
      · rename_i other
        obtain ⟨⟨first, second⟩, later, made⟩ := Option.map_eq_some_iff.mp parted
        cases made
        obtain ⟨whole, clean⟩ := ih later
        refine ⟨by rw [whole]; rfl, fun member => ?_⟩
        obtain same | inside := List.mem_cons.mp member
        · exact other same.symm
        · exact clean inside
  · rintro ⟨rfl, clean⟩
    exact splitAtFirst_append clean back

/-! ### Decimal numbers -/

def isDecimalDigit (c : UInt8) : Bool := 48 ≤ c ∧ c ≤ 57

def decimalValue (digits : List UInt8) : Nat :=
  digits.foldl (fun value c => 10 * value + (c.toNat - 48)) 0

/-- `%lu`. -/
def printDecimal (value : Nat) : List UInt8 :=
  (printUnsigned value).map fun c => UInt8.ofNat c.toNat

def isSpaceOrTab (c : UInt8) : Bool := c = 32 ∨ c = 9

def isBlankByte (c : UInt8) : Bool := c = 32 ∨ 9 ≤ c ∧ c ≤ 13

/-- `strtoul` with base 10: blanks, a sign, and as many digits as there are. A minus sign
wraps, too much saturates, and no digit at all is zero. -/
def strtoulDecimal (text : List UInt8) : UInt32 :=
  let text := text.dropWhile isBlankByte
  let negative := text.head? = some 45
  let unsigned := if negative ∨ text.head? = some 43 then text.drop 1 else text
  let value := decimalValue (unsigned.takeWhile isDecimalDigit)
  if value < 2 ^ 32 then if negative then 0 - UInt32.ofNat value else UInt32.ofNat value
  else 0xFFFFFFFF

/-- A text of nothing but digits that says a number of thirty-two bits. -/
structure SaysDecimal (text : List UInt8) (value : UInt32) : Prop where
  some : text ≠ []
  digits : ∀ c ∈ text, isDecimalDigit c = true
  value : decimalValue text = value.toNat

theorem digit_bounds {c : UInt8} (digit : isDecimalDigit c = true) :
    48 ≤ c.toNat ∧ c.toNat ≤ 57 := by
  simpa [isDecimalDigit, UInt8.le_iff_toNat_le] using digit

theorem not_isBlankByte_of_digit {c : UInt8} (digit : isDecimalDigit c = true) :
    isBlankByte c = false := by
  have ⟨low, high⟩ := digit_bounds digit
  simp only [isBlankByte, decide_eq_false_iff_not, UInt8.le_iff_toNat_le, ← UInt8.toNat_inj]
  rintro (blank | ⟨-, blank⟩)
  · have : (32 : UInt8).toNat = 32 := rfl
    omega
  · have : (13 : UInt8).toNat = 13 := rfl
    omega

/-- What is no sign and no blank is where the number begins. -/
theorem ne_of_digit {c sign : UInt8} (digit : isDecimalDigit c = true) (below : sign.toNat < 48) :
    c ≠ sign := by
  rintro rfl
  have := digit_bounds digit
  omega

/-- Such a text is read as the number it says. -/
theorem strtoulDecimal_of_digits {text : List UInt8} (some : text ≠ [])
    (digits : ∀ c ∈ text, isDecimalDigit c = true) (fits : decimalValue text < 2 ^ 32) :
    strtoulDecimal text = UInt32.ofNat (decimalValue text) := by
  cases text with
  | nil => exact absurd rfl some
  | cons c rest =>
    have digit := digits c List.mem_cons_self
    have solid : ¬isBlankByte c = true := by simp [not_isBlankByte_of_digit digit]
    have minus : ¬(c :: rest).head? = Option.some 45 :=
      fun same => ne_of_digit digit (by decide) (Option.some.inj same)
    have plus : ¬(c :: rest).head? = Option.some 43 :=
      fun same => ne_of_digit digit (by decide) (Option.some.inj same)
    unfold strtoulDecimal
    rw [List.dropWhile_cons_of_neg solid]
    dsimp only
    rw [if_neg (not_or.mpr ⟨minus, plus⟩), List.takeWhile_eq_self_iff.mpr digits, if_pos fits,
      if_neg minus]

theorem saysDecimal_iff {text : List UInt8} {value : UInt32} :
    SaysDecimal text value ↔ (text ≠ [] ∧ (∀ c ∈ text, isDecimalDigit c = true) ∧
      decimalValue text < 2 ^ 32) ∧ strtoulDecimal text = value := by
  constructor
  · rintro ⟨some, digits, said⟩
    have fits : decimalValue text < 2 ^ 32 := said ▸ value.toNat_lt
    refine ⟨⟨some, digits, fits⟩, ?_⟩
    rw [strtoulDecimal_of_digits some digits fits, said, UInt32.ofNat_toNat]
  · rintro ⟨⟨some, digits, fits⟩, read⟩
    refine ⟨some, digits, ?_⟩
    rw [← read, strtoulDecimal_of_digits some digits fits, UInt32.toNat_ofNat_of_lt' fits]

private theorem digit_byte {c : Char} (digit : c.isDigit = true) :
    (UInt8.ofNat c.toNat).toNat = c.toNat ∧ 48 ≤ c.toNat ∧ c.toNat ≤ 57 := by
  simp only [Char.isDigit, Bool.and_eq_true, decide_eq_true_eq] at digit
  have low : 48 ≤ c.toNat := digit.1
  have high : c.toNat ≤ 57 := digit.2
  exact ⟨UInt8.toNat_ofNat_of_lt' (Nat.lt_of_le_of_lt high (by decide)), low, high⟩

private theorem decimalValue_bytes {digits : List Char} (decimal : ∀ c ∈ digits, c.isDigit = true) :
    decimalValue (digits.map fun c => UInt8.ofNat c.toNat) = digitsValue 10 digits := by
  have fold : ∀ value : Nat, (digits.map fun c => UInt8.ofNat c.toNat).foldl
      (fun value c => 10 * value + (c.toNat - 48)) value =
      digits.foldl (fun value c => 10 * value + digitValue c) value := by
    induction digits with
    | nil => exact fun _ => rfl
    | cons c rest ih =>
      intro value
      have digit := decimal c List.mem_cons_self
      rw [List.map_cons, List.foldl_cons, List.foldl_cons, digitValue_of_isDigit digit,
        (digit_byte digit).1]
      exact ih (fun other member => decimal other (List.mem_cons_of_mem c member)) _
  exact fold 0

/-- What is printed says the number. -/
theorem saysDecimal_print (value : UInt32) : SaysDecimal (printDecimal value.toNat) value where
  some := fun none => printUnsigned_ne_nil _ (List.map_eq_nil_iff.mp none)
  digits := by
    intro c member
    obtain ⟨digit, inside, rfl⟩ := List.mem_map.mp member
    obtain ⟨byte, low, high⟩ := digit_byte (isDigit_of_mem_printUnsigned inside)
    simp only [isDecimalDigit, decide_eq_true_eq, UInt8.le_iff_toNat_le, byte]
    exact ⟨low, high⟩
  value := by
    unfold printDecimal
    rw [decimalValue_bytes fun c => isDigit_of_mem_printUnsigned, digitsValue_printUnsigned]

theorem printDecimal_length (value : UInt32) : (printDecimal value.toNat).length ≤ 10 := by
  rw [printDecimal, List.length_map]
  have fits : value.toNat < 10 ^ 10 := Nat.lt_trans value.toNat_lt (by decide)
  exact (Nat.length_toDigits_le_iff (by decide) (by decide)).mpr fits

end BallyOS.Library
