import Mathlib.Data.List.Basic

/-! The disk signature of the SD card. A card partitioned on the robot has none,
and a PC knows its volume by it; so each time the card is taken into use, a
missing one is written into the first sector, which also holds the partition
table. -/
namespace BallyOS.Storage

def mbrDiskSignatureOffset : Nat := 440
def mbrPartitionTableOffset : Nat := 446
def mbrPartitionEntrySize : Nat := 16
def mbrSignatureOffset : Nat := 510
def sdSectorSize : Nat := 512

structure Sector where
  bytes : List UInt8
  size : bytes.length = sdSectorSize

/-- The registers of a card that tell it from others. -/
structure CardIdentity where
  serial : Int32
  mfgId : Int32
  oemId : Int32
  date : Int32
  capacity : Int32
deriving Repr, DecidableEq

def readU32Le (bytes : List UInt8) (offset : Nat) : UInt32 :=
  bytes[offset]!.toUInt32 ||| bytes[offset + 1]!.toUInt32 <<< 8 |||
    bytes[offset + 2]!.toUInt32 <<< 16 ||| bytes[offset + 3]!.toUInt32 <<< 24

def writeU32Le (bytes : List UInt8) (offset : Nat) (value : UInt32) : List UInt8 :=
  (((bytes.set offset value.toUInt8).set (offset + 1) (value >>> 8).toUInt8).set (offset + 2)
    (value >>> 16).toUInt8).set (offset + 3) (value >>> 24).toUInt8

def makeDiskSignature (card : CardIdentity) : UInt32 :=
  let signature := card.serial.toUInt32
  let signature := signature ^^^ card.mfgId.toUInt32 <<< 24
  let signature := signature ^^^ card.oemId.toUInt32 <<< 8
  let signature := signature ^^^ card.date.toUInt32 * 0x45D9F3B
  let signature := signature ^^^ card.capacity.toUInt32
  let signature := signature ^^^ 0x42414C4C
  let signature := signature ^^^ (signature >>> 16)
  let signature := signature * 0x7FEB352D
  let signature := signature ^^^ (signature >>> 15)
  if signature = 0 ∨ signature = 0xFFFFFFFF then 0x42414C4C else signature

/-- What the walk over the partition entries comes to. -/
inductive Found
  | gpt
  | partition
  | nothing
deriving Repr, DecidableEq

def isGpt (bytes : List UInt8) (index : Nat) : Prop :=
  bytes[mbrPartitionTableOffset + index * mbrPartitionEntrySize + 4]! = 0xEE

/-- An entry that names a partition within the card. -/
def isPartition (capacity : Int32) (bytes : List UInt8) (index : Nat) : Prop :=
  let entry := mbrPartitionTableOffset + index * mbrPartitionEntrySize
  let firstSector := readU32Le bytes (entry + 8)
  let sectorCount := readU32Le bytes (entry + 12)
  (bytes[entry]! = 0x00 ∨ bytes[entry]! = 0x80) ∧ bytes[entry + 4]! ≠ 0 ∧ firstSector ≠ 0 ∧
    sectorCount ≠ 0 ∧
    firstSector.toUInt64 + sectorCount.toUInt64 ≤ capacity.toInt64.toUInt64

instance (bytes : List UInt8) (index : Nat) : Decidable (isGpt bytes index) :=
  inferInstanceAs (Decidable (_ = _))

instance (capacity : Int32) (bytes : List UInt8) (index : Nat) :
    Decidable (isPartition capacity bytes index) :=
  inferInstanceAs (Decidable (_ ∧ _))

def findPartition (capacity : Int32) (bytes : List UInt8) : List Nat → Found
  | [] => .nothing
  | index :: rest =>
    if isGpt bytes index then .gpt
    else if isPartition capacity bytes index then .partition
    else findPartition capacity bytes rest

/-- What the card answers. A write that fails, or that the power cuts off, may have been done. -/
structure Answers where
  firstRead : Bool
  written : Bool
  stored : Bool
  secondRead : Bool
deriving Repr, DecidableEq

private theorem length_writeU32Le (bytes : List UInt8) (offset : Nat) (value : UInt32) :
    (writeU32Le bytes offset value).length = bytes.length := by
  simp [writeU32Le]

def Sector.signed (disk : Sector) (signature : UInt32) : Sector where
  bytes := writeU32Le disk.bytes mbrDiskSignatureOffset signature
  size := by rw [length_writeU32Le, disk.size]

/-- What it returns, and the sector that is on the card afterwards. -/
def ensureMbrSignature (card : CardIdentity) (disk : Sector) (answers : Answers) :
    Bool × Sector :=
  if !answers.firstRead then (false, disk)
  else if disk.bytes[mbrSignatureOffset]! ≠ 0x55 ∨ disk.bytes[mbrSignatureOffset + 1]! ≠ 0xAA then
    (true, disk)
  else
    match findPartition card.capacity disk.bytes [0, 1, 2, 3] with
    | .gpt => (true, disk)
    | .nothing => (true, disk)
    | .partition =>
      if readU32Le disk.bytes mbrDiskSignatureOffset ≠ 0 then (true, disk)
      else
        let signature := makeDiskSignature card
        let after := if answers.stored then disk.signed signature else disk
        if !answers.written || !answers.secondRead then (false, after)
        else (readU32Le after.bytes mbrDiskSignatureOffset == signature, after)

/-- The card is taken into use again and again, by whatever robot: what each of
them was told, the latest first, and the sector. -/
def uses (card : CardIdentity) (disk : Sector) : List Answers → List Bool × Sector
  | [] => ([], disk)
  | answers :: rest =>
    let before := uses card disk rest
    let (told, after) := ensureMbrSignature card before.2 answers
    (told :: before.1, after)

/-- A partitioned disk whose signature is missing: no GUID table is announced up to the first
partition. -/
structure Unsigned (card : CardIdentity) (disk : Sector) : Prop where
  mbr : disk.bytes[mbrSignatureOffset]! = 0x55 ∧ disk.bytes[mbrSignatureOffset + 1]! = 0xAA
  partitioned : ∃ index < 4, isPartition card.capacity disk.bytes index ∧
    ∀ earlier ≤ index, ¬isGpt disk.bytes earlier
  zero : readU32Le disk.bytes mbrDiskSignatureOffset = 0

private theorem makeDiskSignature_ne (card : CardIdentity) :
    makeDiskSignature card ≠ 0 ∧ makeDiskSignature card ≠ 0xFFFFFFFF := by
  unfold makeDiskSignature
  dsimp only
  split
  · decide
  · rename_i usable
    exact not_or.mp usable

private theorem word_of_parts (value : UInt32) :
    value.toUInt8.toUInt32 ||| (value >>> 8).toUInt8.toUInt32 <<< 8 |||
      (value >>> 16).toUInt8.toUInt32 <<< 16 |||
        (value >>> 24).toUInt8.toUInt32 <<< 24 = value := by
  apply UInt32.toBitVec_inj.1
  ext i within
  simp only [UInt32.toBitVec_or, UInt32.toBitVec_shiftLeft, UInt8.toBitVec_toUInt32,
    UInt32.toBitVec_toUInt8, UInt32.toBitVec_shiftRight]
  simp
  grind

private theorem getElem_writeU32Le {bytes : List UInt8} {offset place : Nat} (value : UInt32)
    (apart : place < offset ∨ offset + 4 ≤ place) :
    (writeU32Le bytes offset value)[place]? = bytes[place]? := by
  unfold writeU32Le
  rw [List.getElem?_set_ne (by omega), List.getElem?_set_ne (by omega),
    List.getElem?_set_ne (by omega), List.getElem?_set_ne (by omega)]

private theorem readU32Le_writeU32Le {bytes : List UInt8} {offset : Nat} (value : UInt32)
    (fits : offset + 4 ≤ bytes.length) :
    readU32Le (writeU32Le bytes offset value) offset = value := by
  have first : (writeU32Le bytes offset value)[offset]! = value.toUInt8 := by
    grind [writeU32Le]
  have second : (writeU32Le bytes offset value)[offset + 1]! = (value >>> 8).toUInt8 := by
    grind [writeU32Le]
  have third : (writeU32Le bytes offset value)[offset + 2]! = (value >>> 16).toUInt8 := by
    grind [writeU32Le]
  have fourth : (writeU32Le bytes offset value)[offset + 3]! = (value >>> 24).toUInt8 := by
    grind [writeU32Le]
  rw [readU32Le, first, second, third, fourth]
  exact word_of_parts value

private theorem readU32Le_signed (disk : Sector) (signature : UInt32) :
    readU32Le (disk.signed signature).bytes mbrDiskSignatureOffset = signature :=
  readU32Le_writeU32Le signature (by rw [disk.size]; decide)

/-- The walk finds a partition that no announced GUID table stands before. -/
theorem findPartition_eq_partition (capacity : Int32) (bytes : List UInt8) (count start : Nat) :
    findPartition capacity bytes (List.range' start count) = .partition ↔
      ∃ index, start ≤ index ∧ index < start + count ∧ isPartition capacity bytes index ∧
        ∀ earlier, start ≤ earlier → earlier ≤ index → ¬isGpt bytes earlier := by
  induction count generalizing start with
  | zero =>
    refine iff_of_false nofun ?_
    rintro ⟨index, after, before, -⟩
    omega
  | succ count ih =>
    rw [List.range'_succ, findPartition]
    split
    · rename_i gpt
      refine iff_of_false nofun ?_
      rintro ⟨index, after, -, -, free⟩
      exact free start (Nat.le_refl _) after gpt
    · rename_i free
      split
      · rename_i here
        refine iff_of_true rfl
          ⟨start, Nat.le_refl _, by omega, here, fun earlier after before => ?_⟩
        rwa [Nat.le_antisymm before after]
      · rename_i notHere
        rw [ih]
        constructor
        · rintro ⟨index, after, before, found, none⟩
          refine ⟨index, by omega, by omega, found, fun earlier onward until_ => ?_⟩
          obtain rfl | later := Nat.eq_or_lt_of_le onward
          · exact free
          · exact none earlier later until_
        · rintro ⟨index, after, before, found, none⟩
          obtain rfl | later := Nat.eq_or_lt_of_le after
          · exact absurd found notHere
          · exact ⟨index, later, by omega, found, fun earlier onward => none earlier (by omega)⟩

private theorem unsigned_iff (card : CardIdentity) (disk : Sector) : Unsigned card disk ↔
    (disk.bytes[mbrSignatureOffset]! = 0x55 ∧ disk.bytes[mbrSignatureOffset + 1]! = 0xAA) ∧
      findPartition card.capacity disk.bytes [0, 1, 2, 3] = .partition ∧
        readU32Le disk.bytes mbrDiskSignatureOffset = 0 := by
  rw [show [0, 1, 2, 3] = List.range' 0 4 from rfl, findPartition_eq_partition]
  constructor
  · rintro ⟨mbr, ⟨index, within, found, free⟩, zero⟩
    exact ⟨mbr, ⟨index, Nat.zero_le _, by omega, found, fun earlier _ => free earlier⟩, zero⟩
  · rintro ⟨mbr, ⟨index, -, within, found, free⟩, zero⟩
    exact ⟨mbr, ⟨index, by omega, found, fun earlier => free earlier (Nat.zero_le _)⟩, zero⟩

/-- One use of the card writes the signature if it is missing, and nothing else. -/
theorem ensure_cases (card : CardIdentity) (disk : Sector) (answers : Answers) :
    ((ensureMbrSignature card disk answers).2 = disk ∨ Unsigned card disk ∧
      (ensureMbrSignature card disk answers).2 = disk.signed (makeDiskSignature card)) ∧
    (Unsigned card disk → (ensureMbrSignature card disk answers).1 = true →
      (ensureMbrSignature card disk answers).2 = disk.signed (makeDiskSignature card)) := by
  rw [unsigned_iff]
  unfold ensureMbrSignature
  split
  · exact ⟨.inl rfl, nofun⟩
  split
  · rename_i noMbr
    exact ⟨.inl rfl, fun unsigned => absurd noMbr (by simp [unsigned.1])⟩
  rename_i mbr
  rw [not_or, not_not, not_not] at mbr
  split
  · rename_i gpt
    exact ⟨.inl rfl, fun unsigned => by rw [gpt] at unsigned; cases unsigned.2.1⟩
  · rename_i nothing
    exact ⟨.inl rfl, fun unsigned => by rw [nothing] at unsigned; cases unsigned.2.1⟩
  rename_i found
  split
  · rename_i nonzero
    exact ⟨.inl rfl, fun unsigned => absurd unsigned.2.2 nonzero⟩
  rename_i zero
  rw [not_not] at zero
  dsimp only
  by_cases stored : answers.stored = true
  · rw [if_pos stored]
    exact ⟨.inr ⟨⟨mbr, found, zero⟩, by split <;> rfl⟩, fun _ _ => by split <;> rfl⟩
  · rw [if_neg stored]
    refine ⟨.inl (by split <;> rfl), fun _ told => ?_⟩
    -- a write that was not done is noticed by what is read back
    have other : (0 : UInt32) ≠ makeDiskSignature card := (makeDiskSignature_ne card).1.symm
    split at told
    · cases told
    · simp [zero, other] at told

private theorem not_unsigned_signed (card : CardIdentity) (disk : Sector) :
    ¬Unsigned card (disk.signed (makeDiskSignature card)) := by
  intro unsigned
  have zero := unsigned.zero
  rw [readU32Le_signed] at zero
  exact (makeDiskSignature_ne card).1 zero

/-- However often the card is taken into use, it is as it was, and nobody was told that a missing
signature is there, or the signature has been written once. -/
theorem uses_cases (card : CardIdentity) (start : Sector) (answers : List Answers) :
    (uses card start answers).2 = start ∧
      (Unsigned card start → true ∉ (uses card start answers).1) ∨
    Unsigned card start ∧ (uses card start answers).2 = start.signed (makeDiskSignature card) := by
  induction answers with
  | nil => exact .inl ⟨rfl, fun _ => List.not_mem_nil⟩
  | cons first rest ih =>
    obtain ⟨step, told⟩ := ensure_cases card (uses card start rest).2 first
    simp only [uses]
    obtain ⟨kept, untold⟩ | ⟨unsigned, signed⟩ := ih
    · rw [kept] at step told ⊢
      obtain same | ⟨unsigned, signed⟩ := step
      · by_cases unsigned : Unsigned card start
        · by_cases success : (ensureMbrSignature card start first).1 = true
          · exact .inr ⟨unsigned, told unsigned success⟩
          · refine .inl ⟨same, fun _ => ?_⟩
            rw [List.mem_cons, not_or]
            exact ⟨Ne.symm success, untold unsigned⟩
        · exact .inl ⟨same, fun missing => absurd missing unsigned⟩
      · exact .inr ⟨unsigned, signed⟩
    · right
      rw [signed] at step ⊢
      obtain same | ⟨again, -⟩ := step
      · exact ⟨unsigned, same⟩
      · exact absurd again (not_unsigned_signed card start)

/-- However often the card is taken into use, by whatever robot, and wherever reads and writes fail
or the power goes: of its first sector only the four bytes of the signature ever change, and they
only where they were missing on a disk with a partition and no GUID table, to what the card's own
registers give. As soon as one use succeeded on such a disk they are there. -/
theorem only_a_missing_signature_is_written (card : CardIdentity) (start : Sector)
    (answers : List Answers) :
    (∀ place, place < mbrDiskSignatureOffset ∨ mbrDiskSignatureOffset + 4 ≤ place →
      (uses card start answers).2.bytes[place]? = start.bytes[place]?) ∧
    (¬Unsigned card start → (uses card start answers).2 = start) ∧
    (Unsigned card start →
      (uses card start answers).2 = start ∧ true ∉ (uses card start answers).1 ∨
      readU32Le (uses card start answers).2.bytes mbrDiskSignatureOffset =
        makeDiskSignature card) ∧
    makeDiskSignature card ≠ 0 ∧ makeDiskSignature card ≠ 0xFFFFFFFF := by
  obtain ⟨kept, untold⟩ | ⟨unsigned, signed⟩ := uses_cases card start answers
  · refine ⟨fun place _ => by rw [kept], fun _ => kept,
      fun unsigned => .inl ⟨kept, untold unsigned⟩, makeDiskSignature_ne card⟩
  · rw [signed]
    refine ⟨fun place apart => getElem_writeU32Le _ apart, fun other => absurd unsigned other,
      fun _ => .inr (readU32Le_signed start _), makeDiskSignature_ne card⟩

end BallyOS.Storage
