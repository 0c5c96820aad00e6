import BallyOS.Library.LittleEndian
import Mathlib.Data.List.Basic

/-! What the log ring stores: a 16-byte header and the payload it announces,
and the fragments one stored record is written to the SD card as. -/
namespace BallyOS.Logger
open Library

inductive LogType
  | none | info | warn | erro | debg | cmdo
deriving Repr, DecidableEq

def LogType.code : LogType → UInt8
  | none => 0
  | info => 1
  | warn => 2
  | erro => 3
  | debg => 4
  | cmdo => 5

/-- Sizes the logger is compiled with. A fragment count is one byte and a
stored length two, so 255 whole fragments have to fit in the length; offsets
are 32-bit sums of two positions in the ring. -/
structure Limits where
  storageCapacity : Nat
  maxPayloadSize : Nat
  aeadTagSize : Nat
  capacity_pos : 0 < storageCapacity
  capacity_fits : storageCapacity ≤ 0x80000000
  tag_leaves_room : aeadTagSize < maxPayloadSize
  payload_fits : maxPayloadSize * 255 ≤ 65535

/-- The firmware's ring, with a payload size ESP-NOW frames can carry. -/
def espNowLimits : Limits where
  storageCapacity := 7440000
  maxPayloadSize := 210
  aeadTagSize := 16
  capacity_pos := by decide
  capacity_fits := by decide
  tag_leaves_room := by decide
  payload_fits := by decide

structure StoredLogHeader where
  timestampUs : UInt64
  sequence : UInt32
  length : UInt16
  type : UInt8
  reserved : UInt8
deriving Repr, DecidableEq

namespace StoredLogHeader

def storedSize : Nat := 16

/-- The header as it lies in memory. -/
def encode (header : StoredLogHeader) : List UInt8 :=
  toBytes 8 header.timestampUs.toNat ++ toBytes 4 header.sequence.toNat ++
    toBytes 2 header.length.toNat ++ [header.type, header.reserved]

def decode (bytes : List UInt8) : StoredLogHeader where
  timestampUs := UInt64.ofNat (ofBytes (bytes.take 8))
  sequence := UInt32.ofNat (ofBytes ((bytes.drop 8).take 4))
  length := UInt16.ofNat (ofBytes ((bytes.drop 12).take 2))
  type := bytes.getD 14 0
  reserved := bytes.getD 15 0

/-- Header and payload together. -/
def recordSize (header : StoredLogHeader) : Nat := storedSize + header.length.toNat

@[simp] theorem length_encode (header : StoredLogHeader) : header.encode.length = storedSize := by
  simp [encode, storedSize]

private theorem take_append_of_length {first rest : List UInt8} (size : first.length = width) :
    (first ++ rest).take width = first := by
  subst size
  exact List.take_left

private theorem drop_append_of_length {first rest : List UInt8} (size : first.length = width) :
    (first ++ rest).drop width = rest := by
  subst size
  exact List.drop_left

theorem decode_encode (header : StoredLogHeader) : decode header.encode = header := by
  obtain ⟨timestampUs, sequence, length, type, reserved⟩ := header
  have time : (toBytes 8 timestampUs.toNat ++ toBytes 4 sequence.toNat).length = 12 := by simp
  have all : (toBytes 8 timestampUs.toNat ++ toBytes 4 sequence.toNat ++
      toBytes 2 length.toNat).length = 14 := by simp
  simp only [decode, encode, mk.injEq]
  refine ⟨?_, ?_, ?_, ?_, ?_⟩
  · rw [List.append_assoc, List.append_assoc, take_append_of_length (by simp), ofBytes_toBytes]
    simp
  · rw [List.append_assoc, List.append_assoc, drop_append_of_length (by simp),
      take_append_of_length (by simp), ofBytes_toBytes]
    simp
  · rw [List.append_assoc, drop_append_of_length time, take_append_of_length (by simp),
      ofBytes_toBytes]
    simp
  · rw [List.getD_eq_getElem?_getD, List.getElem?_append_right (by omega), all]
    rfl
  · rw [List.getD_eq_getElem?_getD, List.getElem?_append_right (by omega), all]
    rfl

end StoredLogHeader

/-- A header together with exactly the payload it announces. -/
structure StoredRecord where
  header : StoredLogHeader
  payload : List UInt8
  announced : payload.length = header.length.toNat
  nonempty : 0 < payload.length
deriving DecidableEq

namespace StoredRecord

def bytes (record : StoredRecord) : List UInt8 := record.header.encode ++ record.payload

def size (record : StoredRecord) : Nat := record.header.recordSize

@[simp] theorem recordSize_header (record : StoredRecord) :
    record.header.recordSize = record.size := rfl

@[simp] theorem length_bytes (record : StoredRecord) : record.bytes.length = record.size := by
  simp [bytes, size, StoredLogHeader.recordSize, record.announced]

theorem size_pos (record : StoredRecord) : StoredLogHeader.storedSize < record.size := by
  have := record.nonempty
  have := record.announced
  unfold size StoredLogHeader.recordSize
  omega

end StoredRecord

/-- The bytes of a sequence of records, one after the other. -/
def recordBytes (records : List StoredRecord) : List UInt8 := records.flatMap StoredRecord.bytes

def totalSize : List StoredRecord → Nat
  | [] => 0
  | record :: records => record.size + totalSize records

@[simp] theorem recordBytes_nil : recordBytes [] = [] := rfl

@[simp] theorem recordBytes_cons (record : StoredRecord) (records : List StoredRecord) :
    recordBytes (record :: records) = record.bytes ++ recordBytes records := rfl

@[simp] theorem recordBytes_append (first second : List StoredRecord) :
    recordBytes (first ++ second) = recordBytes first ++ recordBytes second := by
  simp [recordBytes]

@[simp] theorem totalSize_nil : totalSize [] = 0 := rfl

@[simp] theorem totalSize_cons (record : StoredRecord) (records : List StoredRecord) :
    totalSize (record :: records) = record.size + totalSize records := rfl

@[simp] theorem totalSize_append (first second : List StoredRecord) :
    totalSize (first ++ second) = totalSize first + totalSize second := by
  induction first with
  | nil => simp
  | cons record first ih => simp [ih, Nat.add_assoc]

@[simp] theorem length_recordBytes (records : List StoredRecord) :
    (recordBytes records).length = totalSize records := by
  induction records with
  | nil => rfl
  | cons record records ih => simp [ih]

theorem totalSize_eq_zero (none : totalSize records = 0) : records = [] := by
  cases records with
  | nil => rfl
  | cons record records =>
    have := record.size_pos
    simp at none
    omega

/-- What `encode_fragment` is given for one packet of a record. -/
structure Fragment where
  type : UInt8
  sequence : UInt32
  timestampUs : UInt64
  payload : List UInt8
  fragmentIndex : UInt8
  fragmentCount : UInt8
deriving Repr, DecidableEq

/-- A codec in the clear that refuses what does not fit a frame. -/
def plainCodec (fragment : Fragment) : Option (List UInt8) :=
  if fragment.payload.length ≤ espNowLimits.maxPayloadSize then
    some ([fragment.type, fragment.fragmentIndex, fragment.fragmentCount] ++ fragment.payload)
  else none

/-- How many packets a record takes, in the byte the loop counts with. -/
def fragmentCount (limits : Limits) (header : StoredLogHeader) : UInt8 :=
  UInt8.ofNat ((header.length.toNat + limits.maxPayloadSize - 1) / limits.maxPayloadSize)

def fragmentLength (limits : Limits) (header : StoredLogHeader) (packet : Nat) : Nat :=
  min (header.length.toNat - packet * limits.maxPayloadSize) limits.maxPayloadSize

def fragmentOf (limits : Limits) (header : StoredLogHeader) (payload : List UInt8)
    (packet : UInt8) : Fragment where
  type := header.type
  sequence := header.sequence
  timestampUs := header.timestampUs
  payload := payload
  fragmentIndex := packet
  fragmentCount := fragmentCount limits header

/-- The fragments a record is to be written as, in order. -/
def StoredRecord.fragments (limits : Limits) (record : StoredRecord) : List Fragment :=
  (List.range (fragmentCount limits record.header).toNat).map fun packet =>
    fragmentOf limits record.header
      ((record.payload.drop (packet * limits.maxPayloadSize)).take limits.maxPayloadSize)
      (UInt8.ofNat packet)

/-- A stored length the ring accepts is at most 255 fragments, so the byte
does not wrap. -/
theorem fragmentCount_toNat (limits : Limits) {header : StoredLogHeader}
    (bounded : header.length.toNat ≤ limits.maxPayloadSize * 255) :
    (fragmentCount limits header).toNat =
      (header.length.toNat + limits.maxPayloadSize - 1) / limits.maxPayloadSize := by
  have room : 0 < limits.maxPayloadSize := Nat.lt_of_le_of_lt (Nat.zero_le _) limits.tag_leaves_room
  have few : (header.length.toNat + limits.maxPayloadSize - 1) / limits.maxPayloadSize < 256 := by
    rw [Nat.div_lt_iff_lt_mul room]
    omega
  simp [fragmentCount, Nat.mod_eq_of_lt few]

private theorem slices_flatten (width count : Nat) (bytes : List UInt8) :
    ((List.range count).map fun index => (bytes.drop (index * width)).take width).flatten =
      bytes.take (count * width) := by
  induction count with
  | zero => simp
  | succ count ih =>
    rw [List.range_succ, List.map_append, List.flatten_append, ih, Nat.succ_mul, List.take_add]
    simp

/-- The fragments of a record carry its stored payload, whole and in order. -/
theorem fragments_payload (limits : Limits) {record : StoredRecord}
    (bounded : record.payload.length ≤ limits.maxPayloadSize * 255) :
    ((record.fragments limits).map Fragment.payload).flatten = record.payload := by
  have room : 0 < limits.maxPayloadSize := Nat.lt_of_le_of_lt (Nat.zero_le _) limits.tag_leaves_room
  have covers : record.payload.length ≤
      (fragmentCount limits record.header).toNat * limits.maxPayloadSize := by
    rw [fragmentCount_toNat limits (record.announced ▸ bounded), ← record.announced]
    have division := Nat.div_add_mod (record.payload.length + limits.maxPayloadSize - 1)
      limits.maxPayloadSize
    have rest := Nat.mod_lt (record.payload.length + limits.maxPayloadSize - 1) room
    rw [Nat.mul_comm] at division
    omega
  simp only [StoredRecord.fragments, List.map_map, Function.comp_def, fragmentOf, slices_flatten]
  exact List.take_of_length_le covers

end BallyOS.Logger
