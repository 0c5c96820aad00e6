import Mathlib.Data.List.TakeWhile
import Mathlib.Tactic.Ring

/-! Integers as the C library writes and reads them: `%lu` and `%ld`, and
`strtoul` and `strtol` with base 0 on a 32-bit `long`. Reading gives the value and
the text behind it, or nothing when there are no digits. -/
namespace BallyOS.Library

/-- The value of a digit in any base up to sixteen; 16 for what is not a digit. -/
def digitValue (c : Char) : Nat :=
  if c.isDigit then c.toNat - 48
  else if 'a' ≤ c ∧ c ≤ 'f' then c.toNat - 87
  else if 'A' ≤ c ∧ c ≤ 'F' then c.toNat - 55
  else 16

def digitsValue (base : Nat) (digits : List Char) : Nat :=
  digits.foldl (fun value c => base * value + digitValue c) 0

def isSpace (c : Char) : Bool :=
  c ∈ [' ', '\t', '\n', '\x0b', '\x0c', '\r']

def readSign : List Char → Bool × List Char
  | '-' :: rest => (true, rest)
  | '+' :: rest => (false, rest)
  | text => (false, text)

/-- The base a number's first characters call for, and its digits from there. -/
def readBase : List Char → Nat × List Char
  | '0' :: x :: c :: rest =>
    if (x = 'x' ∨ x = 'X') ∧ digitValue c < 16 then (16, c :: rest) else (8, '0' :: x :: c :: rest)
  | '0' :: rest => (8, '0' :: rest)
  | text => (10, text)

def readMagnitude (text : List Char) : Option (Nat × List Char) :=
  let (base, digits) := readBase text
  let run := digits.takeWhile (digitValue · < base)
  if run = [] then none
  else some (digitsValue base run, digits.dropWhile (digitValue · < base))

def readSigned (text : List Char) : Option (Bool × Nat × List Char) :=
  let (negative, unsigned) := readSign (text.dropWhile isSpace)
  (readMagnitude unsigned).map fun (value, rest) => (negative, value, rest)

def strtoul (text : List Char) : Option (UInt32 × List Char) :=
  (readSigned text).map fun (negative, value, rest) =>
    (if value < 2 ^ 32 then if negative then 0 - UInt32.ofNat value else UInt32.ofNat value
      else 0xFFFFFFFF, rest)

def strtol (text : List Char) : Option (Int × List Char) :=
  (readSigned text).map fun (negative, value, rest) =>
    (if negative then max (-2 ^ 31) (-value) else min (2 ^ 31 - 1) value, rest)

/-- `%lu` and `%u`. -/
def printUnsigned (value : Nat) : List Char := Nat.toDigits 10 value

/-- `%ld`. -/
def printSigned (value : Int) : List Char :=
  if value < 0 then '-' :: printUnsigned value.natAbs else printUnsigned value.natAbs

theorem digitValue_of_isDigit {c : Char} (digit : c.isDigit = true) :
    digitValue c = c.toNat - '0'.toNat :=
  if_pos digit

theorem digitValue_lt_of_isDigit {c : Char} (digit : c.isDigit = true) : digitValue c < 10 := by
  rw [digitValue_of_isDigit digit]
  have bounds := digit
  simp only [Char.isDigit, Bool.and_eq_true, decide_eq_true_eq] at bounds
  have top : c.toNat ≤ 57 := bounds.2
  have zero : '0'.toNat = 48 := rfl
  omega

theorem isDigit_of_mem_printUnsigned {c : Char} (member : c ∈ printUnsigned n) :
    c.isDigit = true :=
  Nat.isDigit_of_mem_toDigits (by decide) (by decide) member

theorem printUnsigned_ne_nil (n : Nat) : printUnsigned n ≠ [] :=
  Nat.toDigits_ne_nil

/-- On decimal digits the value is the one the digits were made from. -/
theorem digitsValue_eq_ofDigitChars (digits : List Char)
    (decimal : ∀ c ∈ digits, c.isDigit = true) :
    digitsValue 10 digits = Nat.ofDigitChars 10 digits 0 := by
  have fold : ∀ value : Nat, digits.foldl (fun value c => 10 * value + digitValue c) value =
      Nat.ofDigitChars 10 digits value := by
    induction digits with
    | nil => exact fun _ => rfl
    | cons c rest ih =>
      intro value
      rw [List.foldl_cons, Nat.ofDigitChars_cons, digitValue_of_isDigit (decimal c (by simp))]
      exact ih (fun other member => decimal other (by simp [member])) _
  exact fold 0

theorem digitsValue_append (base : Nat) (front back : List Char) :
    digitsValue base (front ++ back) =
      digitsValue base front * base ^ back.length + digitsValue base back := by
  have fold : ∀ value : Nat, back.foldl (fun value c => base * value + digitValue c) value =
      value * base ^ back.length + digitsValue base back := by
    unfold digitsValue
    induction back with
    | nil => simp
    | cons c rest ih =>
      intro value
      rw [List.foldl_cons, List.foldl_cons, ih, ih (base * 0 + digitValue c), List.length_cons,
        Nat.pow_succ]
      ring
  unfold digitsValue
  rw [List.foldl_append]
  exact fold _

theorem digitsValue_printUnsigned (n : Nat) : digitsValue 10 (printUnsigned n) = n := by
  rw [digitsValue_eq_ofDigitChars _ fun c => isDigit_of_mem_printUnsigned]
  exact Nat.ofDigitChars_ten_toDigits

/-- Only zero is printed with a zero in front. -/
theorem printUnsigned_head (n : Nat) (leads : printUnsigned n = '0' :: rest) : n = 0 := by
  induction n using Nat.strongRecOn generalizing rest with
  | ind n ih =>
    unfold printUnsigned at leads ih
    by_cases small : n < 10
    · rw [Nat.toDigits_of_lt_base small] at leads
      have digit := congrArg Char.toNat (List.cons.inj leads).1
      rw [Nat.toNat_digitChar_of_lt_ten small] at digit
      have zero : '0'.toNat = 48 := rfl
      omega
    · rw [Nat.toDigits_of_base_le (by decide) (by omega)] at leads
      cases front : Nat.toDigits 10 (n / 10) with
      | nil => exact absurd front Nat.toDigits_ne_nil
      | cons c more =>
        rw [front, List.cons_append] at leads
        have first : c = '0' := (List.cons.inj leads).1
        have zero := ih (n / 10) (by omega) (first ▸ front)
        omega

private theorem readBase_printUnsigned (positive : 0 < n) :
    readBase (printUnsigned n) = (10, printUnsigned n) := by
  unfold readBase
  split
  · rename_i leads
    have := printUnsigned_head n leads
    omega
  · rename_i leads
    have := printUnsigned_head n leads
    omega
  · rfl

private theorem readMagnitude_printUnsigned (n : Nat) :
    readMagnitude (printUnsigned n) = some (n, []) := by
  rcases Nat.eq_zero_or_pos n with rfl | positive
  · rfl
  · have every : ∀ c ∈ printUnsigned n, decide (digitValue c < 10) = true := fun c member =>
      decide_eq_true (digitValue_lt_of_isDigit (isDigit_of_mem_printUnsigned member))
    unfold readMagnitude
    rw [readBase_printUnsigned positive]
    dsimp only
    rw [List.takeWhile_eq_self_iff.mpr every, List.dropWhile_eq_nil_iff.mpr every,
      if_neg (printUnsigned_ne_nil n), digitsValue_printUnsigned]

theorem isSpace_of_isDigit {c : Char} (digit : c.isDigit = true) : isSpace c = false := by
  refine Bool.eq_false_iff.mpr fun space => ?_
  simp only [isSpace, List.mem_cons, List.not_mem_nil, or_false, decide_eq_true_eq] at space
  rcases space with rfl | rfl | rfl | rfl | rfl | rfl <;> exact absurd digit (by decide)

/-- A number starts with a digit, which is neither a space nor a sign. -/
theorem printUnsigned_start (n : Nat) :
    (printUnsigned n).dropWhile isSpace = printUnsigned n ∧
      readSign (printUnsigned n) = (false, printUnsigned n) := by
  cases digits : printUnsigned n with
  | nil => exact absurd digits (printUnsigned_ne_nil n)
  | cons c rest =>
    have digit : c.isDigit = true := isDigit_of_mem_printUnsigned (n := n) (by simp [digits])
    constructor
    · exact List.dropWhile_cons_of_neg (by simp [isSpace_of_isDigit digit])
    · unfold readSign
      split
      · rename_i leads
        cases leads
        exact absurd digit (by decide)
      · rename_i leads
        cases leads
        exact absurd digit (by decide)
      · rfl

private theorem readSigned_printUnsigned (n : Nat) :
    readSigned (printUnsigned n) = some (false, n, []) := by
  obtain ⟨unspaced, unsigned⟩ := printUnsigned_start n
  unfold readSigned
  rw [unspaced, unsigned]
  dsimp only
  rw [readMagnitude_printUnsigned]
  rfl

private theorem readSigned_negative (n : Nat) :
    readSigned ('-' :: printUnsigned n) = some (true, n, []) := by
  unfold readSigned
  have sign : readSign ('-' :: printUnsigned n) = (true, printUnsigned n) := rfl
  rw [List.dropWhile_cons_of_neg (by decide), sign]
  dsimp only
  rw [readMagnitude_printUnsigned]
  rfl

theorem strtoul_printUnsigned (small : n < 2 ^ 32) :
    strtoul (printUnsigned n) = some (UInt32.ofNat n, []) := by
  unfold strtoul
  rw [readSigned_printUnsigned]
  simp only [Option.map_some, Bool.false_eq_true, ↓reduceIte, if_pos small]

theorem strtol_printSigned (value : Int) (low : -2 ^ 31 ≤ value) (high : value < 2 ^ 31) :
    strtol (printSigned value) = some (value, []) := by
  unfold strtol printSigned
  split
  · rw [readSigned_negative]
    simp only [Option.map_some, ↓reduceIte, Option.some.injEq, Prod.mk.injEq, and_true]
    omega
  · rw [readSigned_printUnsigned]
    simp only [Option.map_some, Bool.false_eq_true, ↓reduceIte, Option.some.injEq,
      Prod.mk.injEq, and_true]
    omega

end BallyOS.Library
