import Mathlib.Data.List.Induction
import BallyOS.Library.Numeral

/-! What a text says as a decimal integer, beside what `strtoul` with base 0 makes of it.
They agree except where the text is in another base, signed, or too large. -/
namespace BallyOS.Library

/-- The integer a text denotes: a sign, if there is one, and decimal digits. -/
def decimal (text : List Char) : Option Int :=
  let (negative, digits) := readSign text
  if digits ≠ [] ∧ digits.all (·.isDigit) = true then
    some (if negative then -(digitsValue 10 digits : Int) else digitsValue 10 digits)
  else none

/-- The base that the digits of a text call for. -/
def calledBase (text : List Char) : Nat := (readBase (readSign (text.dropWhile isSpace)).2).1

/-- What `strtoul` gives for a magnitude: a minus sign wraps, and too much saturates. -/
def wrapped (negative : Bool) (value : Nat) : Nat :=
  if value < 2 ^ 32 then if negative then (2 ^ 32 - value) % 2 ^ 32 else value else 2 ^ 32 - 1

/-- The value of a text that `strtoul` reads to its end. -/
def strtoulWhole (text : List Char) : Option UInt32 :=
  match strtoul text with
  | some (v, []) => some v
  | _ => none

private theorem toNat_wrapped (negative : Bool) (value : Nat) :
    (if value < 2 ^ 32 then if negative then 0 - UInt32.ofNat value else UInt32.ofNat value
      else 0xFFFFFFFF : UInt32).toNat = wrapped negative value := by
  unfold wrapped
  split
  · rename_i small
    split
    · rw [UInt32.toNat_sub, UInt32.toNat_ofNat_of_lt' small]
      rfl
    · exact UInt32.toNat_ofNat_of_lt' small
  · rfl

private theorem strtoulWhole_iff {text : List Char} {v : UInt32} :
    strtoulWhole text = some v ↔
      ∃ negative value, readSigned text = some (negative, value, []) ∧
        v.toNat = wrapped negative value := by
  unfold strtoulWhole strtoul
  cases read : readSigned text with
  | none => simp
  | some parts =>
    obtain ⟨negative, value, rest⟩ := parts
    cases rest with
    | nil =>
      simp only [Option.map_some, Option.some.injEq, Prod.mk.injEq, and_true]
      rw [← UInt32.toNat_inj, toNat_wrapped]
      constructor
      · exact fun same => ⟨negative, value, ⟨rfl, rfl⟩, same.symm⟩
      · rintro ⟨_, _, ⟨rfl, rfl⟩, same⟩
        exact same.symm
    | cons c rest => simp

/-! ### Digits -/

private theorem isDigit_iff_digitValue_lt (c : Char) : c.isDigit = true ↔ digitValue c < 10 := by
  refine ⟨digitValue_lt_of_isDigit, fun small => ?_⟩
  unfold digitValue at small
  split at small
  · assumption
  have letter (least : Char) (within : least ≤ c) : least.toNat ≤ c.toNat := within
  split at small
  · rename_i lower
    have := letter 'a' lower.1
    have a : 'a'.toNat = 97 := rfl
    omega
  split at small
  · rename_i upper
    have := letter 'A' upper.1
    have a : 'A'.toNat = 65 := rfl
    omega
  · omega

private theorem digitsValue_concat (base : Nat) (digits : List Char) (c : Char) :
    digitsValue base (digits ++ [c]) = base * digitsValue base digits + digitValue c := by
  unfold digitsValue
  rw [List.foldl_append]
  rfl

private theorem digitValue_le_digitsValue {digits : List Char} {c : Char} (member : c ∈ digits) :
    digitValue c ≤ digitsValue 10 digits := by
  induction digits using List.reverseRecOn with
  | nil => exact absurd member List.not_mem_nil
  | append_singleton digits last ih =>
    rw [digitsValue_concat]
    rcases List.mem_append.mp member with before | here
    · have := ih before
      omega
    · rw [List.mem_singleton.mp here]
      omega

/-- The same octal digits in base 8 and in base 10: the same value below 8, and a smaller
one from there. -/
theorem octal_or_decimal {digits : List Char} (octal : ∀ c ∈ digits, digitValue c < 8) :
    digitsValue 8 digits = digitsValue 10 digits ∧ digitsValue 8 digits < 8 ∨
      8 ≤ digitsValue 8 digits ∧ digitsValue 8 digits < digitsValue 10 digits := by
  induction digits using List.reverseRecOn with
  | nil => exact .inl ⟨rfl, by decide⟩
  | append_singleton digits last ih =>
    have before := ih fun c member => octal c (List.mem_append_left _ member)
    have digit := octal last (by simp)
    rw [digitsValue_concat, digitsValue_concat]
    omega

/-! ### Reading to the end -/

private theorem readBase_cases (digits : List Char) :
    readBase digits = (10, digits) ∨ readBase digits = (8, digits) ∨ (readBase digits).1 = 16 := by
  unfold readBase
  split
  · split
    · exact .inr (.inr rfl)
    · exact .inr (.inl rfl)
  · exact .inr (.inl rfl)
  · exact .inl rfl

private theorem readBase_decimal {digits : List Char} (decimals : ∀ c ∈ digits, c.isDigit = true) :
    readBase digits = (10, digits) ∨ readBase digits = (8, digits) := by
  unfold readBase
  split
  · rename_i x c rest
    have digit := decimals x (by simp)
    rw [if_neg]
    · exact .inr rfl
    · rintro ⟨rfl | rfl, _⟩
      · exact absurd digit (by decide)
      · exact absurd digit (by decide)
  · exact .inr rfl
  · exact .inl rfl

private theorem readMagnitude_whole {text : List Char} {value : Nat} :
    readMagnitude text = some (value, []) ↔ (readBase text).2 ≠ [] ∧
      (∀ c ∈ (readBase text).2, digitValue c < (readBase text).1) ∧
        value = digitsValue (readBase text).1 (readBase text).2 := by
  unfold readMagnitude
  dsimp only
  generalize readBase text = called
  obtain ⟨base, digits⟩ := called
  dsimp only
  constructor
  · intro read
    split at read
    · contradiction
    · rename_i some
      have parts := Option.some.inj read
      have every : ∀ c ∈ digits, digitValue c < base := by
        simpa using List.dropWhile_eq_nil_iff.mp (congrArg Prod.snd parts)
      have run : digits.takeWhile (digitValue · < base) = digits :=
        List.takeWhile_eq_self_iff.mpr fun c member => decide_eq_true (every c member)
      rw [run] at some parts
      exact ⟨some, every, (congrArg Prod.fst parts).symm⟩
  · rintro ⟨some, every, rfl⟩
    have run : digits.takeWhile (digitValue · < base) = digits :=
      List.takeWhile_eq_self_iff.mpr fun c member => decide_eq_true (every c member)
    have rest : digits.dropWhile (digitValue · < base) = [] :=
      List.dropWhile_eq_nil_iff.mpr fun c member => decide_eq_true (every c member)
    rw [run, rest, if_neg some]

private theorem readSigned_whole {text : List Char} {negative : Bool} {value : Nat} :
    readSigned text = some (negative, value, []) ↔
      (readSign (text.dropWhile isSpace)).1 = negative ∧
        readMagnitude (readSign (text.dropWhile isSpace)).2 = some (value, []) := by
  unfold readSigned
  dsimp only
  generalize readSign (text.dropWhile isSpace) = signed
  obtain ⟨sign, digits⟩ := signed
  cases readMagnitude digits with
  | none => simp
  | some parts =>
    obtain ⟨magnitude, rest⟩ := parts
    simp only [Option.map_some, Option.some.injEq, Prod.mk.injEq]

private theorem decimal_eq_some {text : List Char} {n : Int} :
    decimal text = some n ↔
      ((readSign text).2 ≠ [] ∧ ∀ c ∈ (readSign text).2, c.isDigit = true) ∧
        n = if (readSign text).1 then -(digitsValue 10 (readSign text).2 : Int)
          else digitsValue 10 (readSign text).2 := by
  unfold decimal
  simp only [← List.all_eq_true]
  rw [Option.ite_none_right_eq_some, Option.some.injEq, @eq_comm _ n]

/-- A decimal has no white space in front. -/
theorem unspaced_of_decimal {text : List Char} {n : Int} (denotes : decimal text = some n) :
    text.dropWhile isSpace = text := by
  obtain ⟨⟨some, digits⟩, _⟩ := decimal_eq_some.mp denotes
  cases text with
  | nil => rfl
  | cons c rest =>
    apply List.dropWhile_cons_of_neg
    unfold readSign at some digits
    split at digits
    · rename_i same
      cases same
      decide
    · rename_i same
      cases same
      decide
    · rw [isSpace_of_isDigit (digits c List.mem_cons_self)]
      exact Bool.false_ne_true

/-! ### Where they agree -/

/-- A text that is written so that `strtoul` makes of it, below the bound, what it denotes. -/
structure PlainlyWritten (bound : Nat) (text : List Char) : Prop where
  read : ∀ negative value, readSigned text = some (negative, value, []) →
    wrapped negative value < bound →
      text.dropWhile isSpace = text ∧ (negative = true → value = 0) ∧ value < 2 ^ 32 ∧
        (calledBase text = 10 ∨ calledBase text = 8 ∧ value < 8)
  written : ∀ n : Nat, decimal text = some (n : Int) → n < bound → calledBase text = 8 → n < 8

private theorem wrapped_small {negative : Bool} {value : Nat} (small : value < 2 ^ 32)
    (signed : negative = true → value = 0) : wrapped negative value = value := by
  unfold wrapped
  rw [if_pos small]
  split
  · rename_i minus
    rw [signed minus]
    rfl
  · rfl

/-- The magnitude of a decimal that is no negative number. -/
theorem magnitude_of_decimal {text : List Char} {n : Nat}
    (denotes : decimal text = some (n : Int)) :
    digitsValue 10 (readSign text).2 = n ∧ ((readSign text).1 = true → n = 0) := by
  obtain ⟨_, value⟩ := decimal_eq_some.mp denotes
  split at value
  · omega
  · rename_i plus
    exact ⟨by omega, fun minus => absurd minus plus⟩

/-- How a decimal that `strtoul` reads to its end is read. -/
theorem reading_of_decimal {text : List Char} {n value : Nat} {negative : Bool}
    (denotes : decimal text = some (n : Int))
    (read : readSigned text = some (negative, value, [])) :
    (negative = true → n = 0) ∧ (calledBase text = 10 ∧ value = n ∨
      calledBase text = 8 ∧ (value = n ∧ value < 8 ∨ 8 ≤ value ∧ value < n)) := by
  obtain ⟨same, signed⟩ := magnitude_of_decimal denotes
  obtain ⟨sign, magnitude⟩ := readSigned_whole.mp read
  have unspaced := unspaced_of_decimal denotes
  rw [unspaced] at sign magnitude
  rw [sign] at signed
  obtain ⟨_, each, worth⟩ := readMagnitude_whole.mp magnitude
  unfold calledBase
  rw [unspaced]
  rcases readBase_decimal (decimal_eq_some.mp denotes).1.2 with base | base
  · rw [base] at worth ⊢
    exact ⟨signed, .inl ⟨rfl, worth.trans same⟩⟩
  · rw [base] at worth each ⊢
    dsimp only at worth each
    have either := octal_or_decimal each
    exact ⟨signed, .inr ⟨rfl, by omega⟩⟩

private theorem plainlyWritten_of_agree {bound : Nat} (within : bound ≤ 2 ^ 32) {text : List Char}
    (agree : ∀ v : UInt32, v.toNat < bound →
      (strtoulWhole text = some v ↔ decimal text = some (v.toNat : Int))) :
    PlainlyWritten bound text := by
  have exact32 {n : Nat} (small : n < bound) : (UInt32.ofNat n).toNat = n :=
    UInt32.toNat_ofNat_of_lt' (Nat.lt_of_lt_of_le small within)
  refine ⟨fun negative value read small => ?_, fun n denotes small octal => ?_⟩
  · have whole := strtoulWhole_iff.mpr ⟨negative, value, read, exact32 small⟩
    have denotes := (agree _ (by rw [exact32 small]; exact small)).mp whole
    rw [exact32 small] at denotes
    obtain ⟨signed, base⟩ := reading_of_decimal denotes read
    have zero : negative = true → value = 0 := fun minus => by
      have := signed minus
      omega
    have fits : value < 2 ^ 32 := by omega
    have same := wrapped_small fits zero
    exact ⟨unspaced_of_decimal denotes, zero, fits, by omega⟩
  · have whole := (agree (UInt32.ofNat n) (by rw [exact32 small]; exact small)).mpr
      (by rw [exact32 small]; exact denotes)
    obtain ⟨negative, value, read, worth⟩ := strtoulWhole_iff.mp whole
    rw [exact32 small] at worth
    obtain ⟨signed, base⟩ := reading_of_decimal denotes read
    have zero : negative = true → value = 0 := fun minus => by
      have := signed minus
      omega
    have same := wrapped_small (by omega : value < 2 ^ 32) zero
    omega

private theorem agree_of_plainlyWritten {bound : Nat} (within : bound ≤ 2 ^ 32) {text : List Char}
    (plain : PlainlyWritten bound text) {v : UInt32} (small : v.toNat < bound) :
    strtoulWhole text = some v ↔ decimal text = some (v.toNat : Int) := by
  constructor
  · intro whole
    obtain ⟨negative, value, read, worth⟩ := strtoulWhole_iff.mp whole
    obtain ⟨unspaced, signed, fits, base⟩ := plain.read negative value read (by omega)
    rw [wrapped_small fits signed] at worth
    obtain ⟨sign, magnitude⟩ := readSigned_whole.mp read
    unfold calledBase at base
    rw [unspaced] at sign magnitude base
    obtain ⟨some, each, value'⟩ := readMagnitude_whole.mp magnitude
    -- In either base the digits are decimal ones, of the same value in base 10.
    have digits : (readSign text).2 ≠ [] ∧ (∀ c ∈ (readSign text).2, digitValue c < 10) ∧
        digitsValue 10 (readSign text).2 = value := by
      rcases readBase_cases (readSign text).2 with ten | eight | sixteen
      · rw [ten] at some each value'
        exact ⟨some, each, value'.symm⟩
      · rw [eight] at some each value' base
        dsimp only at some each value' base
        have either := octal_or_decimal each
        exact ⟨some, fun c member => Nat.lt_trans (each c member) (by decide), by omega⟩
      · rw [sixteen] at base
        omega
    refine decimal_eq_some.mpr ⟨⟨digits.1, fun c member => ?_⟩, ?_⟩
    · exact (isDigit_iff_digitValue_lt c).mpr (digits.2.1 c member)
    · rw [sign, digits.2.2, worth]
      split
      · rename_i minus
        rw [signed minus]
        rfl
      · rfl
  · intro denotes
    have unspaced := unspaced_of_decimal denotes
    obtain ⟨⟨some, decimals⟩, _⟩ := decimal_eq_some.mp denotes
    obtain ⟨same, signed⟩ := magnitude_of_decimal denotes
    have fits := wrapped_small (by omega : digitsValue 10 (readSign text).2 < 2 ^ 32)
      fun minus => same.trans (signed minus)
    refine strtoulWhole_iff.mpr
      ⟨_, digitsValue 10 (readSign text).2, readSigned_whole.mpr ⟨rfl, ?_⟩, ?_⟩
    · rw [unspaced]
      apply readMagnitude_whole.mpr
      rcases readBase_decimal decimals with base | base
      · rw [base]
        exact ⟨some, fun c member => (isDigit_iff_digitValue_lt c).mp (decimals c member), rfl⟩
      · have octal : calledBase text = 8 := by
          unfold calledBase
          rw [unspaced, base]
        have below := plain.written _ denotes small octal
        have each : ∀ c ∈ (readSign text).2, digitValue c < 8 := fun c member => by
          have := digitValue_le_digitsValue member
          omega
        have either := octal_or_decimal each
        rw [base]
        exact ⟨some, each, by dsimp only; omega⟩
    · rw [unspaced, fits, same]

/-- Below the bound, `strtoul` gives a text the number it denotes, and no text another
number, exactly if the text is plainly written. -/
theorem strtoulWhole_decimal_iff {bound : Nat} (within : bound ≤ 2 ^ 32) (text : List Char) :
    (∀ v : UInt32, v.toNat < bound →
      (strtoulWhole text = some v ↔ decimal text = some (v.toNat : Int))) ↔
      PlainlyWritten bound text :=
  ⟨plainlyWritten_of_agree within, fun plain _ small => agree_of_plainlyWritten within plain small⟩

end BallyOS.Library
