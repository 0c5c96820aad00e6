import BallyOS.Library.Decimal
import BallyOS.Settings.Table
import BallyOS.Settings.File

/-! Which texts the numeric settings take. What `strtoul` makes of a text is the value,
and only a field of eight bits looks whether it is in range. -/
namespace BallyOS.Settings
open Library

def SettingType.isNumeric (type : SettingType) : Bool := type = .u32 || type = .u8

/-- What the values of a numeric field are below. -/
def SettingType.bound : SettingType → Nat
  | u32 => 2 ^ 32
  | u8 => 2 ^ 8
  | _ => 0

/-- A decimal below the bound, and no less than zero. -/
def decimalBelow (bound : Nat) (text : Text) : Option Nat :=
  match decimal text with
  | some n => if 0 ≤ n ∧ n < bound then some n.toNat else none
  | none => none

/-- The value that a decimal in the range of a numeric field stands for. -/
def inRange : (type : SettingType) → Text → Option type.Value
  | .u32, text => (decimalBelow (2 ^ 32) text).map UInt32.ofNat
  | .u8, text => (decimalBelow (2 ^ 8) text).map UInt8.ofNat
  | _, _ => none

/-- The field takes the text for the decimal it denotes, and no other text: wherever it
comes from, any other leaves the settings as they were. -/
structure TakesItsRange (validGpio : Int → Bool) (i : Fin kTableCount) (text : Text) : Prop where
  parse : parseInto validGpio (row i).type text = inRange (row i).type (cString text)
  set : ∀ data module key, find (cString module) (cString key) = some i →
    set validGpio data module key text =
      match inRange (row i).type (cString text) with
      | some value => (true, Function.update data i value)
      | none => (false, data)
  line : ∀ state key, find state.currentModule key = some i →
    parseEntry validGpio state key text =
      match inRange (row i).type (cString text) with
      | some value => { state with data := Function.update state.data i value }
      | none => state.skip

private theorem parseInto_u32 (validGpio : Int → Bool) (text : Text) :
    parseInto validGpio .u32 text = strtoulWhole (cString text) := by
  unfold parseInto
  split
  · rename_i nothing
    rw [nothing]
    rfl
  · rfl

private theorem decimalBelow_iff {bound n : Nat} {text : Text} :
    decimalBelow bound text = some n ↔ decimal text = some (n : Int) ∧ n < bound := by
  unfold decimalBelow
  cases decimal text with
  | none => simp
  | some m =>
    simp only [Option.ite_none_right_eq_some, Option.some.injEq]
    omega

private theorem inRange_u32 {text : Text} {v : UInt32} :
    inRange .u32 text = some v ↔ decimal text = some (v.toNat : Int) := by
  have unfolded : inRange .u32 text = (decimalBelow (2 ^ 32) text).map UInt32.ofNat := rfl
  rw [unfolded, Option.map_eq_some_iff]
  constructor
  · rintro ⟨n, below, rfl⟩
    obtain ⟨denotes, small⟩ := decimalBelow_iff.mp below
    rw [UInt32.toNat_ofNat_of_lt' small]
    exact denotes
  · intro denotes
    exact ⟨v.toNat, decimalBelow_iff.mpr ⟨denotes, v.toNat_lt⟩, UInt32.ofNat_toNat⟩

private theorem parseInto_u8 (validGpio : Int → Bool) (text : Text) :
    parseInto validGpio .u8 text =
      (strtoulWhole (cString text)).bind fun v => if v > 0xFF then none else some v.toUInt8 := by
  unfold parseInto
  split
  · rename_i nothing
    rw [nothing]
    rfl
  · unfold parseValue strtoulWhole
    dsimp only
    cases strtoul (cString text) with
    | none => rfl
    | some read =>
      obtain ⟨value, rest⟩ := read
      cases rest with
      | nil => rfl
      | cons c rest => rfl

private theorem parseInto_u8_iff {validGpio : Int → Bool} {text : Text} {w : UInt8} :
    parseInto validGpio .u8 text = some w ↔ strtoulWhole (cString text) = some w.toUInt32 := by
  have small := w.toNat_lt
  rw [parseInto_u8]
  cases strtoulWhole (cString text) with
  | none => simp
  | some v =>
    simp only [Option.bind_some, Option.ite_none_left_eq_some, Option.some.injEq, gt_iff_lt,
      UInt32.lt_iff_toNat_lt, ← UInt32.toNat_inj, ← UInt8.toNat_inj, UInt32.toNat_toUInt8,
      UInt8.toNat_toUInt32]
    have most : (0xFF : UInt32).toNat = 255 := rfl
    omega

private theorem inRange_u8 {text : Text} {w : UInt8} :
    inRange .u8 text = some w ↔ decimal text = some (w.toNat : Int) := by
  have unfolded : inRange .u8 text = (decimalBelow (2 ^ 8) text).map UInt8.ofNat := rfl
  rw [unfolded, Option.map_eq_some_iff]
  constructor
  · rintro ⟨n, below, rfl⟩
    obtain ⟨denotes, small⟩ := decimalBelow_iff.mp below
    rw [UInt8.toNat_ofNat_of_lt' small]
    exact denotes
  · intro denotes
    exact ⟨w.toNat, decimalBelow_iff.mpr ⟨denotes, w.toNat_lt⟩, UInt8.ofNat_toNat⟩

/-- A numeric field's value is the decimal's exactly if the text is plainly written. -/
theorem parseInto_inRange_iff (validGpio : Int → Bool) {type : SettingType}
    (numeric : type.isNumeric = true) (text : Text) :
    parseInto validGpio type text = inRange type (cString text) ↔
      PlainlyWritten type.bound (cString text) := by
  cases type with
  | u32 =>
    refine Iff.trans ?_ (strtoulWhole_decimal_iff (Nat.le_refl (2 ^ 32)) (cString text))
    rw [parseInto_u32, Option.ext_iff]
    constructor
    · exact fun agree v _ => (agree v).trans inRange_u32
    · exact fun agree v => (agree v v.toNat_lt).trans inRange_u32.symm
  | u8 =>
    refine Iff.trans ?_ (strtoulWhole_decimal_iff (by decide : 2 ^ 8 ≤ 2 ^ 32) (cString text))
    rw [Option.ext_iff]
    constructor
    · intro agree v small
      have same : v.toUInt8.toUInt32 = v := by
        rw [← UInt32.toNat_inj, UInt8.toNat_toUInt32, UInt32.toNat_toUInt8]
        exact Nat.mod_eq_of_lt small
      have here := parseInto_u8_iff.symm.trans ((agree v.toUInt8).trans inRange_u8)
      rwa [same, UInt32.toNat_toUInt8, Nat.mod_eq_of_lt small] at here
    · intro agree w
      have here := agree w.toUInt32 (by rw [UInt8.toNat_toUInt32]; exact w.toNat_lt)
      rw [UInt8.toNat_toUInt32] at here
      exact parseInto_u8_iff.trans (here.trans inRange_u8.symm)
  | float => contradiction
  | pin => contradiction
  | string size => contradiction

/-- For every numeric field and every text: it is taken for what it denotes as a decimal in
the field's range, exactly if it is plainly written. -/
theorem numeric_settings_iff (validGpio : Int → Bool) {i : Fin kTableCount}
    (numeric : (row i).type.isNumeric = true) (text : Text) :
    TakesItsRange validGpio i text ↔ PlainlyWritten (row i).type.bound (cString text) := by
  rw [← parseInto_inRange_iff validGpio numeric text]
  constructor
  · exact TakesItsRange.parse
  · intro same
    refine ⟨same, fun data module key found => ?_, fun state key found => ?_⟩
    · unfold Settings.set
      rw [found]
      dsimp only
      exact same ▸ rfl
    · unfold parseEntry
      rw [found]
      dsimp only
      exact same ▸ rfl

/-- timers.delay_flags, a field of 32 bits. -/
def delayFlags : Fin kTableCount := ⟨3, by decide⟩

theorem numeric_settings_300 : (row delayFlags).type.isNumeric = true ∧
    TakesItsRange (fun _ => true) delayFlags "300".toList := by
  have read : readSigned (cString "300".toList) = some (false, 300, []) := by decide
  refine ⟨by decide, (numeric_settings_iff (fun _ => true) (by decide) "300".toList).mpr ?_⟩
  refine ⟨fun negative value same _ => ?_, fun n _ _ octal => absurd octal (by decide)⟩
  cases read.symm.trans same
  exact ⟨by decide, fun minus => absurd minus Bool.false_ne_true, by decide, .inl (by decide)⟩

/-- "-1" is taken for 4294967295. -/
theorem negative_number_taken : ¬ ∀ (i : Fin kTableCount) (text : Text),
    (row i).type.isNumeric = true → TakesItsRange (fun _ => true) i text := by
  intro every
  have parse := (every delayFlags "-1".toList (by decide)).parse
  have taken : parseInto (fun _ => true) .u32 "-1".toList = some 4294967295 := by decide
  have refused : inRange .u32 (cString "-1".toList) = none := by
    refine Option.eq_none_iff_forall_ne_some.mpr fun v held => ?_
    have denotes : decimal "-1".toList = some (-1) := by decide
    have same := Option.some.inj (denotes.symm.trans (inRange_u32.mp held))
    omega
  exact absurd (taken.symm.trans (parse.trans refused)) (Option.some_ne_none _)

end BallyOS.Settings
