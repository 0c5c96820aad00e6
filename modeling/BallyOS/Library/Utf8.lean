/-! Texts in UTF-8 as lists of bytes, and where such a text may be cut. A byte either begins a
character or continues one, and a cut before a byte that begins one, or at the end, leaves a
text. -/
namespace BallyOS.Library

def utf8 (text : String) : List UInt8 := text.toByteArray.data.toList

def ValidUtf8 (bytes : List UInt8) : Prop := ∃ text, utf8 text = bytes

/-- A byte inside a character. -/
def isContinuation (byte : UInt8) : Bool := byte &&& 0xC0 == 0x80

/-- The longest beginning of a text of at most so many bytes that is a text itself. -/
structure LongestText (limit : Nat) (text : List UInt8) (cut : List UInt8) : Prop where
  begins : cut <+: text
  fits : cut.length ≤ limit
  valid : ValidUtf8 cut
  longest : ∀ other, other <+: text → other.length ≤ limit → ValidUtf8 other →
    other.length ≤ cut.length

private theorem validUtf8_iff {bytes : ByteArray} : bytes.IsValidUTF8 ↔ ValidUtf8 bytes.data.toList
    := by
  constructor
  · intro valid
    exact ⟨String.ofByteArray bytes valid, rfl⟩
  · rintro ⟨text, same⟩
    have whole : text.toByteArray = bytes := ByteArray.ext (Array.toList_inj.mp same)
    exact whole ▸ text.isValidUTF8

private theorem validUtf8_take_iff_isValid {text : String} {count : Nat}
    (within : count ≤ (utf8 text).length) :
    ValidUtf8 ((utf8 text).take count) ↔ (String.Pos.Raw.mk count).IsValid text := by
  have taken : (text.toByteArray.extract 0 count).data.toList = (utf8 text).take count := by
    simp [utf8, ByteArray.data_extract]
  rw [String.Pos.Raw.isValid_iff_isValidUTF8_extract_zero, validUtf8_iff, taken]
  exact (and_iff_right within).symm

private theorem isContinuation_iff (byte : UInt8) :
    isContinuation byte = true ↔ 128 ≤ byte.toNat ∧ byte.toNat < 192 := by
  have every : ∀ n : Fin 256, isContinuation (UInt8.ofNat n) = true ↔
      128 ≤ n.val ∧ n.val < 192 := by decide +kernel
  have here := every ⟨byte.toNat, byte.toNat_lt⟩
  rwa [UInt8.ofNat_toNat] at here

private theorem isContinuation_ofNat (n : Nat) : isContinuation (UInt8.ofNat (n % 64 + 128)) = true
    := by
  rw [isContinuation_iff, UInt8.toNat_ofNat']
  omega

private theorem not_isContinuation_of_first {byte : UInt8} (first : byte.IsUTF8FirstByte) :
    isContinuation byte = false := by
  have every : ∀ n : Fin 256, (UInt8.ofNat n).IsUTF8FirstByte →
      isContinuation (UInt8.ofNat n) = false := by decide +kernel
  have here := every ⟨byte.toNat, byte.toNat_lt⟩
  rw [UInt8.ofNat_toNat] at here
  exact here first

/-- Only the first byte of a character begins it. -/
theorem isContinuation_tail (c : Char) :
    ∀ byte ∈ (String.utf8EncodeChar c).tail, isContinuation byte = true := by
  have whole : ∀ bytes : List UInt8, (∀ byte ∈ bytes, ∃ n, byte = UInt8.ofNat (n % 64 + 128)) →
      ∀ byte ∈ bytes, isContinuation byte = true := by
    intro bytes made byte member
    obtain ⟨n, rfl⟩ := made byte member
    exact isContinuation_ofNat n
  apply whole _
  dsimp only [String.utf8EncodeChar]
  split
  · exact fun byte member => nomatch member
  · split
    · simp only [List.tail_cons, List.forall_mem_singleton]
      exact ⟨_, rfl⟩
    · split
      · simp only [List.tail_cons, List.forall_mem_cons]
        exact ⟨⟨_, rfl⟩, ⟨_, rfl⟩, nofun⟩
      · simp only [List.tail_cons, List.forall_mem_cons]
        exact ⟨⟨_, rfl⟩, ⟨_, rfl⟩, ⟨_, rfl⟩, nofun⟩

private theorem first_or_continuation {c : Char} {byte : UInt8}
    (member : byte ∈ String.utf8EncodeChar c) :
    byte.IsUTF8FirstByte ∨ isContinuation byte = true := by
  obtain ⟨index, within, rfl⟩ := List.getElem_of_mem member
  cases index with
  | zero => exact Or.inl UInt8.isUTF8FirstByte_getElem_zero_utf8EncodeChar
  | succ index =>
    refine Or.inr (isContinuation_tail c _ ?_)
    rw [← List.getElem_tail (by simpa using Nat.lt_sub_of_add_lt within)]
    exact List.getElem_mem _

private theorem utf8_eq_flatMap (text : String) :
    utf8 text = text.toList.flatMap String.utf8EncodeChar := by
  rw [utf8, ← String.utf8Encode_toList, List.utf8Encode]
  simp

theorem utf8_eq_nil_iff (text : String) : utf8 text = [] ↔ text = "" := by
  have empty : utf8 "" = [] := rfl
  rw [← empty]
  constructor
  · intro same
    exact String.toByteArray_inj.mp (ByteArray.ext (Array.toList_inj.mp same))
  · rintro rfl
    rfl

/-- A byte of a text that continues no character begins one. -/
theorem first_iff {text : String} {byte : UInt8} (member : byte ∈ utf8 text) :
    byte.IsUTF8FirstByte ↔ isContinuation byte = false := by
  rw [utf8_eq_flatMap, List.mem_flatMap] at member
  obtain ⟨c, -, inside⟩ := member
  refine ⟨not_isContinuation_of_first, fun begins => ?_⟩
  exact (first_or_continuation inside).resolve_right (Bool.eq_false_iff.mp begins)

/-- A text may be cut at its end and before each byte that begins a character, and nowhere else. -/
theorem validUtf8_take_iff {text : String} {count : Nat} (within : count ≤ (utf8 text).length) :
    ValidUtf8 ((utf8 text).take count) ↔
      ∀ byte ∈ (utf8 text)[count]?, isContinuation byte = false := by
  rw [validUtf8_take_iff_isValid within, String.Pos.Raw.isValid_iff_isUTF8FirstByte]
  rcases Nat.eq_or_lt_of_le within with rfl | inside
  · apply iff_of_true (Or.inl rfl)
    simp
  · rw [List.getElem?_eq_getElem inside]
    have lies : String.Pos.Raw.mk count < text.rawEndPos := inside
    have notEnd : String.Pos.Raw.mk count ≠ text.rawEndPos := String.Pos.Raw.ne_of_lt lies
    have same : text.getUTF8Byte ⟨count⟩ lies = (utf8 text)[count] := by
      simp [String.getUTF8Byte, utf8, ByteArray.getElem_eq_getElem_data]
    simp only [Option.mem_def, Option.some.injEq, forall_eq',
      ← first_iff (List.getElem_mem inside), notEnd, false_or, exists_prop_of_true lies, same]
    exact Iff.rfl

/-- Reading beyond the end gives a byte that begins something. -/
theorem isContinuation_getD {bytes : List UInt8} {index : Nat} :
    isContinuation (bytes.getD index 0) = true ↔
      ∃ byte ∈ bytes[index]?, isContinuation byte = true := by
  have none : isContinuation 0 = false := by decide
  rw [List.getD_eq_getElem?_getD]
  cases bytes[index]? <;> simp [none]

/-- Where the longest text that fits ends: at the last place up to the limit that may be a cut. -/
theorem longestText_take {text : String} {limit count : Nat} (within : count ≤ (utf8 text).length)
    (fits : count ≤ limit) (sound : ∀ byte ∈ (utf8 text)[count]?, isContinuation byte = false)
    (last : ∀ later, count < later → later ≤ limit → later ≤ (utf8 text).length →
      ∃ byte ∈ (utf8 text)[later]?, isContinuation byte = true) :
    LongestText limit (utf8 text) ((utf8 text).take count) where
  begins := List.take_prefix ..
  fits := Nat.le_trans (List.length_take_le ..) fits
  valid := (validUtf8_take_iff within).mpr sound
  longest := by
    intro other begins short valid
    rw [List.length_take_of_le within]
    refine Nat.le_of_not_lt fun longer => ?_
    obtain ⟨byte, there, continues⟩ := last other.length longer short begins.length_le
    rw [List.prefix_iff_eq_take.mp begins] at valid
    have begun := (validUtf8_take_iff begins.length_le).mp valid byte there
    rw [begun] at continues
    exact absurd continues (by decide)

end BallyOS.Library
