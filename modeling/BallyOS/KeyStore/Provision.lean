import BallyOS.KeyStore.Image

/-! The parser finds the first invalid field of an image, and finds none in what
the provisioning script writes. -/
namespace BallyOS.KeyStore
open Library

def slice (data : List UInt8) (offset size : Nat) : List UInt8 := (data.drop offset).take size

/-- The fields of an image in the order of their checks. -/
def fields : List Error := [.size, .magic, .format, .cipher, .kdf, .crc32, .verifyE, .verifyL]

/-- The tag of a key, by the standards' hash. -/
def tag (key label : List UInt8) : List UInt8 := (hmac Fips180.sha256 64 key label).take 8

/-- A field of an image is as the layout has it. -/
def Valid (crc32 : List UInt8 → UInt32) (image : List UInt8) : Error → Prop
  | .size => image.length = 96
  | .magic => slice image 0 8 = kMagic
  | .format => slice image 8 1 = [0x02]
  | .cipher => slice image 9 1 = [0x00]
  | .kdf => slice image 10 1 = [0x01]
  | .crc32 => ofBytes (slice image 92 4) = (crc32 (slice image 0 92)).toNat
  | .verifyE => slice image 64 8 = tag (slice image 32 16) kVerifyLabelE
  | .verifyL => slice image 72 8 = tag (slice image 48 16) kVerifyLabelL
  | .ok | .file => True

/-- The error is that of the first invalid field of the list, or there is none. -/
def FirstInvalid (valid : Error → Prop) : List Error → Error → Prop
  | [], error => error = .ok
  | field :: rest, error =>
    (¬valid field ∧ error = field) ∨ (valid field ∧ FirstInvalid valid rest error)

private theorem length_slice (enough : offset + size ≤ data.length) :
    (slice data offset size).length = size := by
  rw [slice, List.length_take, List.length_drop]
  omega

private theorem copyOf_toList (enough : offset + size ≤ data.length) :
    (copyOf data offset size).toList = slice data offset size := by
  refine List.ext_getElem (by simp [length_slice enough]) fun i short _ => ?_
  have within : i < size := by simpa using short
  simp only [copyOf, slice, Vector.getElem_toList, Vector.getElem_ofFn, List.getElem_take,
    List.getElem_drop]
  exact getElem!_pos data (offset + i) (by omega)

private theorem slice_one (within : offset < data.length) : slice data offset 1 = [data[offset]!] :=
    by
  rw [slice, List.drop_eq_getElem_cons within, List.take_succ_cons, List.take_zero,
    getElem!_pos data offset within]

private theorem foldl_or_eq_zero (bytes : List UInt8) (diff : UInt8) :
    bytes.foldl (· ||| ·) diff = 0 ↔ diff = 0 ∧ ∀ byte ∈ bytes, byte = 0 := by
  induction bytes generalizing diff with
  | nil => simp
  | cons byte rest ih =>
    rw [List.foldl_cons, ih, List.forall_mem_cons, UInt8.or_eq_zero_iff, and_assoc]

private theorem equalBytes_iff {left right : List UInt8} {size : Nat}
    (leftEnough : size ≤ left.length)
    (rightEnough : size ≤ right.length) :
    equalBytes left right size = true ↔ left.take size = right.take size := by
  have folded := foldl_or_eq_zero ((List.range size).map fun i => left[i]! ^^^ right[i]!) 0
  rw [List.foldl_map] at folded
  unfold equalBytes
  rw [beq_iff_eq, folded]
  constructor
  · rintro ⟨-, every⟩
    refine List.ext_getElem ?_ fun i inLeft inRight => ?_
    · rw [List.length_take, List.length_take]
      omega
    · rw [List.length_take] at inLeft
      have same := every _ (List.mem_map.mpr ⟨i, List.mem_range.mpr (by omega), rfl⟩)
      rw [UInt8.xor_eq_zero_iff, getElem!_pos left i (by omega),
        getElem!_pos right i (by omega)] at same
      rwa [List.getElem_take, List.getElem_take]
  · intro same
    refine ⟨rfl, fun byte member => ?_⟩
    obtain ⟨i, within, rfl⟩ := List.mem_map.mp member
    have short := List.mem_range.mp within
    have item : (left.take size)[i]? = (right.take size)[i]? := congrArg (·[i]?) same
    rw [List.getElem?_take_of_lt short, List.getElem?_take_of_lt short] at item
    rw [UInt8.xor_eq_zero_iff, List.getElem!_eq_getElem?_getD, List.getElem!_eq_getElem?_getD,
      item]

private theorem tag_matches_iff (key label expected : List UInt8) (enough : 8 ≤ expected.length) :
    verifyTagMatches key label expected kVerifyLength = true ↔
      expected.take 8 = tag key label := by
  have long : 8 ≤ (hmacSha256 key label).length := by
    unfold hmacSha256
    rw [Sha256.length_finish]
    decide
  unfold verifyTagMatches tag kVerifyLength
  rw [equalBytes_iff long enough, hmacSha256_eq]
  exact eq_comm

private theorem readU32Le_eq {data : List UInt8} (enough : offset + 4 ≤ data.length) :
    (readU32Le data offset).toNat = ofBytes (slice data offset 4) := by
  have four : slice data offset 4 =
      [data[offset]!, data[offset + 1]!, data[offset + 2]!, data[offset + 3]!] := by
    rw [slice, List.drop_eq_getElem_cons (by omega), List.drop_eq_getElem_cons (by omega),
      List.drop_eq_getElem_cons (by omega), List.drop_eq_getElem_cons (by omega)]
    simp only [List.take_succ_cons, List.take_zero, getElem!_pos data offset (by omega),
      getElem!_pos data (offset + 1) (by omega), getElem!_pos data (offset + 2) (by omega),
      getElem!_pos data (offset + 3) (by omega)]
  have swapped (s t u v : UInt32) : s ||| t ||| u ||| v = v ||| u ||| t ||| s := by ac_rfl
  unfold readU32Le
  rw [swapped, word_of_bytes, ofBits_bitsOf_four, four, UInt32.toNat_ofNat']
  generalize data[offset]! = b0, data[offset + 1]! = b1, data[offset + 2]! = b2,
    data[offset + 3]! = b3
  have := b0.toNat_lt
  have := b1.toNat_lt
  have := b2.toNat_lt
  have := b3.toNat_lt
  simp only [ofBytes]
  omega

section
variable (crc32 : List UInt8 → UInt32)

private theorem ite_first {invalid valid later : Prop} [Decidable invalid]
    {field rest error : Error} (means : invalid ↔ ¬valid)
    (continues : valid → (rest = error ↔ later)) :
    (if invalid then field else rest) = error ↔ (¬valid ∧ error = field) ∨ (valid ∧ later) := by
  by_cases holds : valid
  · rw [if_neg (fun wrong => means.mp wrong holds), continues holds]
    exact ⟨fun after => .inr ⟨holds, after⟩, fun first => (first.resolve_left fun wrong =>
      wrong.1 holds).2⟩
  · rw [if_pos (means.mpr holds)]
    exact ⟨fun same => .inl ⟨holds, same.symm⟩, fun first => (first.resolve_right fun right =>
      holds right.1).2.symm⟩

private theorem magic_iff {data : List UInt8} (sized : data.length = 96) :
    (List.range kMagic.length).any (fun i => data[kOffMagic + i]! != kMagic[i]!) = true ↔
      ¬Valid crc32 data .magic := by
  have length : (slice data 0 8).length = 8 := length_slice (by omega)
  have item (i : Nat) (within : i < 8) : (slice data 0 8)[i]? = some data[kOffMagic + i]! := by
    unfold slice kOffMagic
    rw [List.getElem?_take_of_lt within, List.drop_zero, Nat.zero_add,
      List.getElem!_eq_getElem?_getD, List.getElem?_eq_getElem (by omega)]
    rfl
  have goes : (List.range kMagic.length).any (fun i => data[kOffMagic + i]! != kMagic[i]!) = true ↔
      ¬∀ i, i < 8 → data[kOffMagic + i]! = kMagic[i]! := by
    simp only [List.any_eq_true, not_forall, exists_prop]
    refine exists_congr fun i => and_congr List.mem_range bne_iff_ne
  rw [goes, Valid, not_iff_not]
  constructor
  · intro every
    refine List.ext_getElem? fun i => ?_
    by_cases within : i < 8
    · rw [item i within, every i within, getElem!_pos kMagic i within]
      exact (List.getElem?_eq_getElem within).symm
    · rw [List.getElem?_eq_none (by omega), List.getElem?_eq_none (Nat.le_of_not_lt within)]
  · intro same i within
    have one := item i within
    rw [same, List.getElem?_eq_getElem within] at one
    rw [getElem!_pos kMagic i within]
    exact (Option.some.inj one).symm

private theorem octet_iff {data : List UInt8} {value : UInt8} (within : offset < data.length) :
    data[offset]! ≠ value ↔ ¬slice data offset 1 = [value] := by
  rw [slice_one within, List.singleton_inj]

private theorem crc32_iff {data : List UInt8} (sized : data.length = 96) :
    crc32 (data.take kOffCrc) ≠ readU32Le data kOffCrc ↔ ¬Valid crc32 data .crc32 := by
  rw [Valid, ← readU32Le_eq (by omega), UInt32.toNat_inj]
  exact not_congr eq_comm

private theorem key_iff {data : List UInt8} (sized : data.length = 96) {key expected : Nat}
    (keyWithin : key + 16 ≤ 96) (expectedWithin : expected + 8 ≤ 96) (label : List UInt8) :
    (¬verifyTagMatches (copyOf data key kKeyLength).toList label (data.drop expected)
      kVerifyLength = true) ↔ ¬slice data expected 8 = tag (slice data key 16) label := by
  have enough : 8 ≤ (data.drop expected).length := by
    rw [List.length_drop]
    omega
  have copied : (copyOf data key kKeyLength).toList = slice data key 16 :=
    copyOf_toList (by unfold kKeyLength; omega)
  rw [tag_matches_iff _ _ _ enough, copied]
  rfl

theorem check_eq_iff (data : List UInt8) (error : Error) :
    check crc32 data = error ↔ FirstInvalid (Valid crc32 data) fields error := by
  unfold check
  apply ite_first Iff.rfl
  intro sized
  have sized : data.length = 96 := sized
  apply ite_first (magic_iff crc32 sized)
  intro _
  apply ite_first (octet_iff (by rw [sized]; decide))
  intro _
  apply ite_first (octet_iff (by rw [sized]; decide))
  intro _
  apply ite_first (octet_iff (by rw [sized]; decide))
  intro _
  apply ite_first (crc32_iff crc32 sized)
  intro _
  apply ite_first (key_iff sized (by decide) (by decide) kVerifyLabelE)
  intro _
  apply ite_first (key_iff sized (by decide) (by decide) kVerifyLabelL)
  intro _
  exact eq_comm

/-- What the script writes before the checksum. -/
def body (keyE keyL : List UInt8) : List UInt8 :=
  kMagic ++ [0x02, 0x00, 0x01, 0x00] ++ toBytes 4 200000 ++ kdfSalt ++ keyE ++ keyL ++
    tag keyE kVerifyLabelE ++ tag keyL kVerifyLabelL ++ List.replicate 12 0

/-- An assignment behind what was written so far. -/
private theorem assign_next {written value : List UInt8} {first last : Nat}
    (before : written.length = first) (size : first + value.length = last) :
    assign (written ++ List.replicate (96 - first) 0) first last value =
      written ++ value ++ List.replicate (96 - last) 0 := by
  unfold assign
  rw [List.take_left' before, List.drop_append, List.drop_eq_nil_of_le (by omega),
    List.nil_append, List.drop_replicate, before]
  congr 2
  omega

private theorem set_next {written : List UInt8} {offset : Nat} (before : written.length = offset)
    (within : offset < 96) (value : UInt8) :
    (written ++ List.replicate (96 - offset) 0).set offset value =
      written ++ [value] ++ List.replicate (96 - (offset + 1)) 0 := by
  have one : 96 - offset = 96 - (offset + 1) + 1 := by omega
  rw [List.set_append_right _ _ (by omega), before, Nat.sub_self, one, List.replicate_succ,
    List.set_cons_zero, List.append_assoc, List.singleton_append]

@[simp] theorem length_tag (key label : List UInt8) : (tag key label).length = 8 := by
  have digest : (hmac Fips180.sha256 64 key label).length = 32 :=
    (congrArg List.length (hmacSha256_eq key label)).symm.trans (Sha256.length_finish _)
  rw [tag, List.length_take, digest]
  rfl

@[simp] theorem length_kMagic : kMagic.length = 8 := by
  decide

@[simp] theorem length_kdfSalt : kdfSalt.length = 16 := by
  decide +kernel

private theorem length_body {keyE keyL : List UInt8} (sizeE : keyE.length = 16)
    (sizeL : keyL.length = 16) :
    (body keyE keyL).length = 92 := by
  simp [body, sizeE, sizeL]

/-- The checksum goes behind the rest. -/
private theorem assign_checksum {written blob : List UInt8} (whole : written.length = 92)
    (same : blob = written ++ List.replicate (96 - 92) 0) :
    assign blob 92 96 (toBytes 4 (fileCrc32 crc32 blob).toNat) =
      written ++ toBytes 4 (crc32 written).toNat := by
  rw [same, assign_next whole (by simp), fileCrc32, kOffCrc, List.take_left' whole]
  exact List.append_nil _

private theorem buildBlob_eq {Password : Type} (deriveKey : Password → Bytes kKeyLength)
    (passwordE passwordL : Password) :
    buildBlob crc32 deriveKey passwordE passwordL =
      body (deriveKey passwordE).toList (deriveKey passwordL).toList ++
        toBytes 4
          (crc32 (body (deriveKey passwordE).toList (deriveKey passwordL).toList)).toNat := by
  have sizeE : (deriveKey passwordE).toList.length = 16 := Vector.length_toList
  have sizeL : (deriveKey passwordL).toList.length = 16 := Vector.length_toList
  have empty : List.replicate kFileSize (0 : UInt8) = [] ++ List.replicate (96 - 0) 0 := rfl
  have reserved : List.replicate (96 - 80) (0 : UInt8) =
    List.replicate 12 0 ++ List.replicate (96 - 92) 0 := rfl
  have tags (key label : List UInt8) : verifyTag key label = tag key label := rfl
  unfold buildBlob
  dsimp only
  rw [empty, tags, tags]
  generalize (deriveKey passwordE).toList = keyE at *
  generalize (deriveKey passwordL).toList = keyL at *
  simp only [kOffMagic, kOffFormat, kOffCipher, kOffKdf, kOffReserved1, kOffIters, kOffSalt,
    kOffKeyE, kOffKeyL, kOffVerifyE, kOffVerifyL, kOffCrc, kKeyLength, kVerifyLength,
    Nat.reduceAdd]
  rw [assign_next (by simp) (by simp), set_next (by simp) (by decide),
    set_next (by simp) (by decide), set_next (by simp) (by decide), set_next (by simp) (by decide),
    assign_next (by simp) (by simp), assign_next (by simp) (by simp),
    assign_next (by simp) (by simp [sizeE]), assign_next (by simp [sizeE]) (by simp [sizeL]),
    assign_next (by simp [sizeE, sizeL]) (by simp), assign_next (by simp [sizeE, sizeL]) (by simp)]
  apply assign_checksum crc32 (length_body sizeE sizeL)
  rw [reserved]
  simp only [body, List.nil_append, List.append_assoc, List.cons_append]
  rfl

private theorem slice_skip {front : List UInt8} (passed : front.length ≤ offset) (rest : List UInt8)
    (count : Nat) :
    slice (front ++ rest) offset count = slice rest (offset - front.length) count := by
  rw [slice, List.drop_append, List.drop_eq_nil_of_le passed, List.nil_append, slice]

private theorem slice_here {value : List UInt8} (starts : offset = 0) (size : value.length = count)
    (rest : List UInt8) : slice (value ++ rest) offset count = value := by
  rw [slice, starts, List.drop_zero, List.take_left' size]

section
variable {keyE keyL : List UInt8}

/-- Every field of the script's image is in its place. -/
theorem slices_body (checksum : List UInt8) (sizeE : keyE.length = 16)
    (sizeL : keyL.length = 16) :
    slice (body keyE keyL ++ checksum) 0 8 = kMagic ∧
    slice (body keyE keyL ++ checksum) 8 4 = [0x02, 0x00, 0x01, 0x00] ∧
    slice (body keyE keyL ++ checksum) 12 4 = toBytes 4 200000 ∧
    slice (body keyE keyL ++ checksum) 16 16 = kdfSalt ∧
    slice (body keyE keyL ++ checksum) 32 16 = keyE ∧
    slice (body keyE keyL ++ checksum) 48 16 = keyL ∧
    slice (body keyE keyL ++ checksum) 64 8 = tag keyE kVerifyLabelE ∧
    slice (body keyE keyL ++ checksum) 72 8 = tag keyL kVerifyLabelL ∧
    slice (body keyE keyL ++ checksum) 0 92 = body keyE keyL := by
  have whole := slice_here (by rfl : 0 = 0) (length_body sizeE sizeL) checksum
  refine ⟨?_, ?_, ?_, ?_, ?_, ?_, ?_, ?_, whole⟩
  all_goals
    simp only [body, List.append_assoc]
    simp only [slice_skip, slice_here, length_kMagic, length_toBytes, length_kdfSalt, length_tag,
      sizeE, sizeL, List.length_cons, List.length_nil, Nat.reduceAdd, Nat.reduceSub,
      Nat.reduceLeDiff, Nat.le_refl, Nat.sub_self]

end

/-- The contents of an image made for these keys. -/
structure Carries (contents : Contents) (e l : Bytes kKeyLength) : Prop where
  iterations : contents.iterations = 200000
  salt : contents.salt.toList = kdfSalt
  keyE : contents.keyE = e
  keyL : contents.keyL = l
  verifyE : contents.verifyE.toList = tag e.toList kVerifyLabelE
  verifyL : contents.verifyL.toList = tag l.toList kVerifyLabelL

private theorem carries_extract {image : List UInt8} {keyE keyL : Bytes kKeyLength}
    (built : image = body keyE.toList keyL.toList ++ toBytes 4 checksum) :
    Carries (extract image) keyE keyL := by
  have sizeE : keyE.toList.length = 16 := Vector.length_toList
  have sizeL : keyL.toList.length = 16 := Vector.length_toList
  have length : image.length = 96 := by
    rw [built, List.length_append, length_body sizeE sizeL, length_toBytes]
  obtain ⟨_, _, iterations, salt, keyE', keyL', verifyE, verifyL, _⟩ :=
    slices_body (toBytes 4 checksum) sizeE sizeL
  rw [← built] at iterations salt keyE' keyL' verifyE verifyL
  have copied {offset size : Nat} (within : offset + size ≤ 96) :
      (copyOf image offset size).toList = slice image offset size :=
    copyOf_toList (length ▸ within)
  constructor
  · apply UInt32.toNat_inj.mp
    have value : (200000 : UInt32).toNat = 200000 % 256 ^ 4 := by decide
    rw [extract, readU32Le_eq (by rw [length]; decide), value, ← ofBytes_toBytes]
    exact congrArg ofBytes iterations
  · exact (copied (by decide)).trans salt
  · exact Vector.toList_inj.mp ((copied (by decide)).trans keyE')
  · exact Vector.toList_inj.mp ((copied (by decide)).trans keyL')
  · exact (copied (by decide)).trans verifyE
  · exact (copied (by decide)).trans verifyL

private theorem check_body {image : List UInt8} {keyE keyL : Bytes kKeyLength}
    (built : image = body keyE.toList keyL.toList ++
      toBytes 4 (crc32 (body keyE.toList keyL.toList)).toNat) : check crc32 image = .ok := by
  have sizeE : keyE.toList.length = 16 := Vector.length_toList
  have sizeL : keyL.toList.length = 16 := Vector.length_toList
  have length : image.length = 96 := by
    rw [built, List.length_append, length_body sizeE sizeL, length_toBytes]
  obtain ⟨magic, options, _, _, keyE', keyL', verifyE, verifyL, covered⟩ :=
    slices_body (toBytes 4 (crc32 (body keyE.toList keyL.toList)).toNat) sizeE sizeL
  have checksum : slice image 92 4 = toBytes 4 (crc32 (body keyE.toList keyL.toList)).toNat := by
    have whole := length_body sizeE sizeL
    rw [built, slice, List.drop_left' whole, List.take_of_length_le]
    rw [length_toBytes]
  rw [← built] at magic options keyE' keyL' verifyE verifyL covered
  have octet (i : Nat) (within : i < 4) : slice image (8 + i) 1 =
      (([0x02, 0x00, 0x01, 0x00] : List UInt8).drop i).take 1 := by
    rw [← options, slice, slice, List.drop_take, List.drop_drop, List.take_take,
      Nat.min_eq_left (by omega)]
  rw [check_eq_iff]
  refine .inr ⟨length, .inr ⟨magic, .inr ⟨octet 0 (by decide), .inr ⟨octet 1 (by decide),
    .inr ⟨octet 2 (by decide), .inr ⟨?_, .inr ⟨?_, .inr ⟨?_, rfl⟩⟩⟩⟩⟩⟩⟩⟩
  · rw [Valid, checksum, covered, ofBytes_toBytes]
    exact Nat.mod_eq_of_lt (crc32 (body keyE.toList keyL.toList)).toNat_lt
  · rw [Valid, verifyE, keyE']
  · rw [Valid, verifyL, keyL']

/-- The script's image loads, with the keys it was made for. -/
theorem parse_buildBlob {Password : Type} (deriveKey : Password → Bytes kKeyLength)
    (passwordE passwordL : Password) (out : Option Contents) :
    ∃ contents, parse crc32 (some (buildBlob crc32 deriveKey passwordE passwordL)) out =
        (.ok, out.map fun _ => contents) ∧
      Carries contents (deriveKey passwordE) (deriveKey passwordL) := by
  have built := buildBlob_eq crc32 deriveKey passwordE passwordL
  refine ⟨_, ?_, carries_extract built⟩
  unfold parse
  dsimp only
  rw [check_body crc32 built, if_pos rfl]

end

end BallyOS.KeyStore
