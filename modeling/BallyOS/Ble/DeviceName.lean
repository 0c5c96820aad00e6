import BallyOS.Library.ByteText
import BallyOS.Library.Utf8

/-! The name that the robot goes by over the air. It is kept in a buffer of fixed size, cut to what
a scan response can carry, and no character of it is cut in half. -/
namespace BallyOS.Ble
open Library

/-- Thirty-one octets without the two that head the name field. -/
def maxDeviceNameLength : Nat := 29

def defaultDeviceName : List UInt8 := utf8 "BallyRobot"

def advPayloadMax : Nat := 31

def uuid128AdSize : Nat := 18

/-- The loop that walks back to where the character began that the cut landed in. -/
def backOff (name : List UInt8) : Nat → Nat
  | 0 => 0
  | length + 1 =>
    if isContinuation (name.getD (length + 1) 0) then backOff name length else length + 1

private theorem backOff_le (name : List UInt8) (length : Nat) : backOff name length ≤ length := by
  induction length with
  | zero => exact Nat.le_refl _
  | succ length ih =>
    unfold backOff
    split
    · exact Nat.le_succ_of_le ih
    · exact Nat.le_refl _

/-- How much of a name is kept. -/
def keptLength (name : List UInt8) : Nat :=
  if name.length > maxDeviceNameLength then backOff name maxDeviceNameLength else name.length

private theorem keptLength_le (name : List UInt8) :
    keptLength name ≤ name.length ∧ keptLength name ≤ maxDeviceNameLength := by
  have back := backOff_le name maxDeviceNameLength
  unfold keptLength
  split <;> omega

/-- `device_name_`. -/
structure DeviceName where
  bytes : List UInt8
  size : bytes.length = maxDeviceNameLength + 1

/-- What is at the pointer, which ends with its first NUL, and the default for no pointer or an
empty name. -/
def givenName : Option (List UInt8) → List UInt8
  | none => defaultDeviceName
  | some memory => if untilNul memory = [] then defaultDeviceName else untilNul memory

/-- The copy writes the kept bytes and a NUL over the beginning of what was there. -/
def DeviceName.setDeviceName (deviceName : DeviceName) (name : Option (List UInt8)) :
    DeviceName where
  bytes := (givenName name).take (keptLength (givenName name)) ++
    0 :: deviceName.bytes.drop (keptLength (givenName name) + 1)
  size := by
    have ⟨kept, short⟩ := keptLength_le (givenName name)
    rw [List.length_append, List.length_cons, List.length_drop, deviceName.size,
      List.length_take_of_le kept]
    omega

/-- What `start_advertising` puts in the scan response. -/
structure ScanResponse where
  name : List UInt8
  uuid : Bool
deriving Repr, DecidableEq

def DeviceName.scanResponse (deviceName : DeviceName) : ScanResponse :=
  let nameLen := (untilNul deviceName.bytes).length
  { name := deviceName.bytes.take (UInt8.ofNat nameLen).toNat
    uuid := decide (2 + nameLen + uuid128AdSize ≤ advPayloadMax) }

/-! ### What goes out -/

private theorem nul_not_mem_givenName (name : Option (List UInt8)) : (0 : UInt8) ∉ givenName name :=
    by
  have byDefault : (0 : UInt8) ∉ defaultDeviceName := by decide +kernel
  cases name with
  | none => exact byDefault
  | some memory =>
    dsimp only [givenName]
    split
    · exact byDefault
    · exact nul_not_mem_untilNul memory

private theorem untilNul_setDeviceName (deviceName : DeviceName) (name : Option (List UInt8)) :
    untilNul (deviceName.setDeviceName name).bytes =
      (givenName name).take (keptLength (givenName name)) := by
  have clean : (0 : UInt8) ∉ (givenName name).take (keptLength (givenName name)) := fun member =>
    nul_not_mem_givenName name (List.mem_of_mem_take member)
  exact (untilNul_append _ (by simp)).trans (untilNul_of_none clean)

/-- The name that goes out is what was kept of the name that was given. -/
theorem scanResponse_name (deviceName : DeviceName) (name : Option (List UInt8)) :
    (deviceName.setDeviceName name).scanResponse.name =
      (givenName name).take (keptLength (givenName name)) := by
  have ⟨kept, short⟩ := keptLength_le (givenName name)
  have small : keptLength (givenName name) % 256 = keptLength (givenName name) :=
    Nat.mod_eq_of_lt (Nat.lt_of_le_of_lt short (by decide))
  rw [DeviceName.scanResponse, untilNul_setDeviceName, List.length_take_of_le kept,
    UInt8.toNat_ofNat', small]
  exact List.take_left' (List.length_take_of_le kept)

/-- The walk back stops where a character begins, and behind that is nothing but its rest. -/
theorem backOff_spec {name : List UInt8} (first : ∀ byte ∈ name[0]?, isContinuation byte = false)
    (length : Nat) :
    (∀ byte ∈ name[backOff name length]?, isContinuation byte = false) ∧
      ∀ later, backOff name length < later → later ≤ length →
        ∃ byte ∈ name[later]?, isContinuation byte = true := by
  induction length with
  | zero => exact ⟨first, fun later after upTo => absurd upTo (Nat.not_le.mpr after)⟩
  | succ length ih =>
    unfold backOff
    split
    · rename_i continues
      refine ⟨ih.1, fun later after upTo => ?_⟩
      rcases Nat.le_succ_iff.mp upTo with lower | rfl
      · exact ih.2 later after lower
      · exact isContinuation_getD.mp continues
    · rename_i begins
      refine ⟨fun byte there => Bool.eq_false_iff.mpr fun continues => ?_,
        fun later after upTo => absurd upTo (Nat.not_le.mpr after)⟩
      exact begins (isContinuation_getD.mpr ⟨byte, there, continues⟩)

/-- A text is cut to the longest one that a scan response can carry. -/
theorem longestText_keptLength (text : String) :
    LongestText maxDeviceNameLength (utf8 text) ((utf8 text).take (keptLength (utf8 text))) := by
  have ⟨kept, short⟩ := keptLength_le (utf8 text)
  have first : ∀ byte ∈ (utf8 text)[0]?, isContinuation byte = false :=
    (validUtf8_take_iff (Nat.zero_le _)).mp ⟨"", rfl⟩
  obtain ⟨begins, inside⟩ := backOff_spec first maxDeviceNameLength
  by_cases long : (utf8 text).length > maxDeviceNameLength
  · have walked : keptLength (utf8 text) = backOff (utf8 text) maxDeviceNameLength := if_pos long
    rw [walked] at kept short ⊢
    exact longestText_take kept short begins fun later after upTo _ => inside later after upTo
  · have whole : keptLength (utf8 text) = (utf8 text).length := if_neg long
    rw [whole] at kept short ⊢
    exact longestText_take kept short (by simp) fun later after _ within =>
      absurd within (Nat.not_le.mpr after)

/-- The name that stands for an empty one. -/
def orDefault (name : String) : String := if name = "" then "BallyRobot" else name

/-- Whatever was in the buffer: the name that goes out is the longest text that begins the name
that was given, or the default when that was empty. -/
theorem advertised_longest (deviceName : DeviceName) (memory : List UInt8) (name : String)
    (given : untilNul memory = utf8 name) :
    LongestText maxDeviceNameLength (utf8 (orDefault name))
      (deviceName.setDeviceName (some memory)).scanResponse.name := by
  have same : givenName (some memory) = utf8 (orDefault name) := by
    simp only [givenName, given, utf8_eq_nil_iff, orDefault, apply_ite utf8]
    rfl
  rw [scanResponse_name, same]
  exact longestText_keptLength _

/-- A buffer that nothing was written to yet. -/
def blankName : DeviceName := ⟨List.replicate 30 0, rfl⟩

/-- The sign at the end takes three bytes, of which one would still fit. -/
def priced : String := "abcdefghijklmnopqrstuvwxyz12€"

theorem priced_advertised : LongestText maxDeviceNameLength (utf8 (orDefault priced))
    (blankName.setDeviceName (some (utf8 priced ++ [0]))).scanResponse.name :=
  advertised_longest blankName (utf8 priced ++ [0]) priced (by decide +kernel)

theorem empty_name_defaults : ¬∀ (deviceName : DeviceName) (memory : List UInt8) (name : String),
    untilNul memory = utf8 name → LongestText maxDeviceNameLength (utf8 name)
      (deviceName.setDeviceName (some memory)).scanResponse.name := by
  intro longest
  have begins := (longest blankName [0] "" (by decide)).begins.length_le
  revert begins
  decide +kernel

end BallyOS.Ble
