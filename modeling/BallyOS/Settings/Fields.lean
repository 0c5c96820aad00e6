import BallyOS.Settings.File

/-! What one field's text is worth: which values are read back from what is
written for them, and what any text can make of a field. -/
namespace BallyOS.Settings
open Library

/-- A character that ends neither a line nor a string. -/
def Plain (c : Char) : Prop := c ≠ '\r' ∧ c ≠ '\n' ∧ c ≠ '\x00'

/-- A string that a line can hold: some characters, and no line end. -/
def CString.Holds (value : CString size) : Prop :=
  value.text ≠ [] ∧ ∀ c ∈ value.text, isLineEnd c = false

/-- A value that goes into a line: a string only if a line can hold it. -/
def Legible : (type : SettingType) → type.Value → Prop
  | .string _, value => value.Holds
  | _, _ => True

/-- A pin is a GPIO. -/
def Valid (validGpio : Int → Bool) : (type : SettingType) → type.Value → Prop
  | .pin, value => validGpio value.toInt = true
  | _, _ => True

/-- A value that its text stands for: a float that `%.6f` keeps. -/
def Exact : (type : SettingType) → type.Value → Prop
  | .float, value => value.Kept kFormatRoom
  | _, _ => True

instance (validGpio : Int → Bool) :
    (type : SettingType) → (value : type.Value) → Decidable (Valid validGpio type value)
  | .pin, value => inferInstanceAs (Decidable (validGpio value.toInt = true))
  | .u32, _ => inferInstanceAs (Decidable True)
  | .u8, _ => inferInstanceAs (Decidable True)
  | .float, _ => inferInstanceAs (Decidable True)
  | .string _, _ => inferInstanceAs (Decidable True)

theorem cString_of_plain {text : Text} (plain : '\x00' ∉ text) : cString text = text := by
  refine List.takeWhile_eq_self_iff.mpr fun c member => ?_
  refine decide_eq_true fun nul => ?_
  exact plain (nul ▸ member)

private theorem plain_of_isDigit {c : Char} (digit : c.isDigit = true) : Plain c := by
  refine ⟨?_, ?_, ?_⟩ <;>
    · rintro rfl
      exact absurd digit (by decide)

private theorem plain_printUnsigned (n : Nat) : ∀ c ∈ printUnsigned n, Plain c :=
  fun _ member => plain_of_isDigit (isDigit_of_mem_printUnsigned member)

private theorem plain_printSigned (value : Int) : ∀ c ∈ printSigned value, Plain c := by
  intro c member
  unfold printSigned at member
  split at member
  · rcases List.mem_cons.mp member with rfl | digit
    · exact ⟨by decide, by decide, by decide⟩
    · exact plain_printUnsigned _ c digit
  · exact plain_printUnsigned _ c member

private theorem plain_sign (negative : Bool) :
    ∀ c ∈ (if negative then ['-'] else [] : List Char), Plain c := by
  intro c member
  split at member
  · cases List.mem_singleton.mp member
    exact ⟨by decide, by decide, by decide⟩
  · exact absurd member List.not_mem_nil

private theorem plain_printFixed (value : Binary32) : ∀ c ∈ printFixed value, Plain c := by
  intro c member
  cases value with
  | nan =>
    simp only [printFixed, List.mem_cons, List.not_mem_nil, or_false] at member
    rcases member with rfl | rfl | rfl <;> exact ⟨by decide, by decide, by decide⟩
  | infinite negative =>
    rcases List.mem_append.mp member with sign | letter
    · exact plain_sign negative c sign
    · simp only [List.mem_cons, List.not_mem_nil, or_false] at letter
      rcases letter with rfl | rfl | rfl <;> exact ⟨by decide, by decide, by decide⟩
  | finite negative magnitude =>
    rcases List.mem_append.mp member with sign | number
    · exact plain_sign negative c sign
    · unfold printPlaces at number
      rcases List.mem_append.mp number with digit | number
      · exact plain_printUnsigned _ c digit
      · rcases List.mem_cons.mp number with rfl | digit
        · exact ⟨by decide, by decide, by decide⟩
        · exact plain_of_isDigit ((sixPlaces_spec _).2.1 c digit)

/-- What is written for a legible value goes into one line. -/
theorem formatEntry_plain (type : SettingType) (value : type.Value)
    (legible : Legible type value) :
    ∀ c ∈ formatEntry type value, Plain c := by
  intro c member
  cases type with
  | u32 => exact plain_printUnsigned _ c (List.mem_of_mem_take member)
  | u8 => exact plain_printUnsigned _ c (List.mem_of_mem_take member)
  | float => exact plain_printFixed _ c (List.mem_of_mem_take member)
  | pin => exact plain_printSigned _ c (List.mem_of_mem_take member)
  | string size =>
    have ends := legible.2 c member
    simp only [isLineEnd, Bool.or_eq_false_iff, decide_eq_false_iff_not] at ends
    exact ⟨ends.1, ends.2, fun nul => value.unended (nul ▸ member)⟩

private theorem take_printUnsigned (small : n < 2 ^ 32) :
    (printUnsigned n).take kFormatRoom = printUnsigned n := by
  apply List.take_of_length_le
  exact (printUnsigned_length_le (by decide)).mpr (Nat.lt_trans small (by decide))

private theorem take_printSigned (low : -2 ^ 31 ≤ value) (high : value < 2 ^ 31) :
    (printSigned value).take kFormatRoom = printSigned value := by
  have few : (printUnsigned value.natAbs).length ≤ 30 :=
    (printUnsigned_length_le (by decide)).mpr (Nat.lt_of_le_of_lt (by omega : _ ≤ 2 ^ 31)
      (by decide))
  apply List.take_of_length_le
  unfold printSigned kFormatRoom
  split
  · rw [List.length_cons]
    omega
  · omega

private theorem printSigned_ne_nil (value : Int) : printSigned value ≠ [] := by
  unfold printSigned
  split
  · exact List.cons_ne_nil _ _
  · exact printUnsigned_ne_nil _

theorem nul_of_plain {text : Text} (plain : ∀ c ∈ text, Plain c) : '\x00' ∉ text :=
  fun member => (plain _ member).2.2 rfl

private theorem parseInto_of_plain (validGpio : Int → Bool) (type : SettingType) {text : Text}
    (plain : ∀ c ∈ text, Plain c) (solid : text ≠ []) :
    parseInto validGpio type text = parseValue validGpio type text (nul_of_plain plain) := by
  have same := cString_of_plain (nul_of_plain plain)
  have filled : cString text ≠ [] := by
    rw [same]
    exact solid
  unfold parseInto
  rw [if_neg filled]
  congr 1

private theorem parse_u32 (validGpio : Int → Bool) (value : UInt32) :
    parseInto validGpio .u32 (formatEntry .u32 value) = some value := by
  have text : formatEntry .u32 value = printUnsigned value.toNat :=
    take_printUnsigned value.toNat_lt
  rw [text, parseInto_of_plain validGpio .u32 (plain_printUnsigned _) (printUnsigned_ne_nil _)]
  dsimp only [parseValue]
  rw [strtoul_printUnsigned value.toNat_lt]
  exact congrArg some UInt32.ofNat_toNat

private theorem parse_u8 (validGpio : Int → Bool) (value : UInt8) :
    parseInto validGpio .u8 (formatEntry .u8 value) = some value := by
  have small : value.toNat < 2 ^ 32 := Nat.lt_trans value.toNat_lt (by decide)
  have text : formatEntry .u8 value = printUnsigned value.toNat := take_printUnsigned small
  have wide : UInt32.ofNat value.toNat = value.toUInt32 := by
    apply UInt32.toNat_inj.mp
    simp
  have within : ¬ value.toUInt32 > 0xFF := by
    have bound := value.toNat_lt
    simp only [gt_iff_lt, UInt32.lt_iff_toNat_lt, UInt8.toNat_toUInt32]
    exact Nat.not_lt.mpr (Nat.le_of_lt_succ bound)
  rw [text, parseInto_of_plain validGpio .u8 (plain_printUnsigned _) (printUnsigned_ne_nil _)]
  dsimp only [parseValue]
  rw [strtoul_printUnsigned small, wide]
  dsimp only
  rw [if_neg within]
  exact congrArg some (UInt8.toUInt8_toUInt32 value)

private theorem parse_pin {validGpio : Int → Bool} {value : Int32}
    (valid : validGpio value.toInt = true) :
    parseInto validGpio .pin (formatEntry .pin value) = some value := by
  have low := value.le_toInt
  have high := value.toInt_lt
  have text : formatEntry .pin value = printSigned value.toInt := take_printSigned low high
  rw [text, parseInto_of_plain validGpio .pin (plain_printSigned _) (printSigned_ne_nil _)]
  dsimp only [parseValue]
  rw [strtol_printSigned _ low high]
  dsimp only
  rw [if_pos valid]
  exact congrArg some (Int32.ofInt_toInt value)

private theorem parse_string {size : Nat} (validGpio : Int → Bool) (value : CString size)
    (holds : value.Holds) :
    parseInto validGpio (.string size) (formatEntry (.string size) value) = some value := by
  have plain : ∀ c ∈ formatEntry (.string size) value, Plain c :=
    formatEntry_plain (.string size) value holds
  rw [parseInto_of_plain validGpio (.string size) plain holds.1]
  exact dif_pos value.fits

/-- A legible value's text is read; it gives the value back when it is exact. -/
theorem parseInto_formatEntry {validGpio : Int → Bool} (type : SettingType) (value : type.Value)
    (legible : Legible type value) (valid : Valid validGpio type value) :
    ∃ read, parseInto validGpio type (formatEntry type value) = some read ∧
      (read = value ↔ Exact type value) := by
  cases type with
  | u32 => exact ⟨value, parse_u32 validGpio value, iff_of_true rfl trivial⟩
  | u8 => exact ⟨value, parse_u8 validGpio value, iff_of_true rfl trivial⟩
  | pin => exact ⟨value, parse_pin valid, iff_of_true rfl trivial⟩
  | string size => exact ⟨value, parse_string validGpio value legible, iff_of_true rfl trivial⟩
  | float =>
    obtain ⟨read, reads, exact⟩ := strtof_printFixed kFormatRoom (by decide) value
    have text : formatEntry .float value = (printFixed value).take kFormatRoom := rfl
    rw [← text] at reads
    have plain : ∀ c ∈ formatEntry .float value, Plain c :=
      formatEntry_plain .float value legible
    have solid : formatEntry .float value ≠ [] := by
      intro none
      have empty : strtof [] = some (read, []) := none ▸ reads
      contradiction
    refine ⟨read, ?_, exact⟩
    rw [parseInto_of_plain validGpio .float plain solid]
    dsimp only [parseValue]
    rw [reads]

/-- A text without line ends gives a string field something a line can hold. -/
theorem holds_of_parseInto {size : Nat} {read : CString size}
    (line : ∀ c ∈ text, isLineEnd c = false)
    (reads : parseInto validGpio (.string size) text = some read) : read.Holds := by
  unfold parseInto at reads
  split at reads
  · contradiction
  · rename_i solid
    dsimp only [parseValue] at reads
    split at reads
    · cases reads
      exact ⟨solid, fun c member => line c (List.takeWhile_subset _ member)⟩
    · contradiction

private theorem strtol_range (reads : strtol text = some (value, rest)) :
    -2 ^ 31 ≤ value ∧ value < 2 ^ 31 := by
  unfold strtol at reads
  obtain ⟨⟨negative, magnitude, behind⟩, _, same⟩ := Option.map_eq_some_iff.mp reads
  have clamped := congrArg Prod.fst same
  dsimp only at clamped
  split at clamped <;> omega

/-- A pin field is only given a GPIO. -/
theorem valid_of_parseInto {read : Int32}
    (reads : parseInto validGpio .pin text = some read) : validGpio read.toInt = true := by
  unfold parseInto at reads
  split at reads
  · contradiction
  · dsimp only [parseValue] at reads
    split at reads
    · rename_i v number
      obtain ⟨low, high⟩ := strtol_range number
      split at reads
      · rename_i valid
        cases reads
        rw [Int32.toInt_ofInt_of_le low high]
        exact valid
      · contradiction
    · contradiction

theorem legible_of_parseInto {type : SettingType} {read : type.Value}
    (line : ∀ c ∈ text, isLineEnd c = false)
    (reads : parseInto validGpio type text = some read) : Legible type read := by
  cases type with
  | string size => exact holds_of_parseInto line reads
  | u32 => trivial
  | u8 => trivial
  | float => trivial
  | pin => trivial

theorem validPin_of_parseInto {type : SettingType} {read : type.Value}
    (reads : parseInto validGpio type text = some read) : Valid validGpio type read := by
  cases type with
  | pin => exact valid_of_parseInto reads
  | u32 => trivial
  | u8 => trivial
  | float => trivial
  | string size => trivial

end BallyOS.Settings
