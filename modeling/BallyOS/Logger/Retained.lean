import BallyOS.Logger.Ring

/-! The ring's bytes as a queue of whole records. A record enters at the write
cursor and leaves at the read cursor; between the two, the bytes are exactly
the retained records one after the other, wherever they wrap. -/
namespace BallyOS.Logger
open Library

variable {limits : Limits} {ring : Ring}

/-- The retained bytes are exactly these records, oldest first. -/
structure Retains (limits : Limits) (ring : Ring) (records : List StoredRecord) : Prop where
  start : ring.readOffset < limits.storageCapacity
  used : ring.usedBytes = totalSize records
  within : ring.usedBytes ≤ limits.storageCapacity
  stored : ByteRing.view limits.storageCapacity ring.readOffset (totalSize records) ring.storage =
    recordBytes records
  last : ring.writeOffset = (ring.readOffset + ring.usedBytes) % limits.storageCapacity
  bounded : ∀ record ∈ records, record.payload.length ≤ limits.maxPayloadSize * 255

/-- A whole record lies at an offset. -/
def RecordAt (limits : Limits) (ring : Ring) (offset : Nat) (record : StoredRecord) : Prop :=
  ByteRing.view limits.storageCapacity offset record.size ring.storage = record.bytes

theorem recordAt_of_view {record : StoredRecord} {records : List StoredRecord}
    (held : ByteRing.view limits.storageCapacity offset (totalSize (record :: records))
      ring.storage = recordBytes (record :: records)) :
    RecordAt limits ring offset record ∧
      ByteRing.view limits.storageCapacity (offset + record.size) (totalSize records)
        ring.storage = recordBytes records := by
  rw [totalSize_cons, recordBytes_cons, ByteRing.view_add] at held
  exact List.append_inj held (by simp)

/-- Any slice of a stored payload is read back, also across the end of the ring. -/
theorem read_payload (done count : Nat) (held : RecordAt limits ring offset record)
    (inside : done + count ≤ record.payload.length)
    (fits : record.size ≤ limits.storageCapacity) :
    readFromRing limits ring
      ((offset + StoredLogHeader.storedSize + done) % limits.storageCapacity) count =
        (record.payload.drop done).take count := by
  have announced := record.announced
  have within := Nat.mod_lt (offset + StoredLogHeader.storedSize + done) limits.capacity_pos
  have whole : record.size = StoredLogHeader.storedSize + record.payload.length := by
    simp [StoredRecord.size, StoredLogHeader.recordSize, announced]
  rw [readFromRing, ByteRing.read_eq_view within (by omega), ByteRing.view_mod, Nat.add_assoc,
    ByteRing.view_slice _ _ held (by omega), StoredRecord.bytes, ← List.drop_drop,
    List.drop_left' (StoredLogHeader.length_encode _)]

theorem readHeaderAt_of_record (held : RecordAt limits ring offset record)
    (within : offset < limits.storageCapacity) (whole : record.size ≤ available)
    (fits : record.size ≤ limits.storageCapacity) :
    readHeaderAt limits ring offset available = some record.header := by
  have size := record.size_pos
  have header : readFromRing limits ring offset StoredLogHeader.storedSize =
      record.header.encode := by
    have front := ByteRing.view_slice 0 StoredLogHeader.storedSize held (by omega)
    rw [readFromRing, ByteRing.read_eq_view within (by omega)]
    simpa [StoredRecord.bytes, List.take_left'] using front
  have nonempty : 0 < record.header.length.toNat := record.announced ▸ record.nonempty
  rw [readHeaderAt, if_neg (by omega), header, StoredLogHeader.decode_encode]
  exact if_pos ⟨nonempty, whole, fits⟩

private theorem record_eq {first second : StoredRecord} (header : first.header = second.header)
    (payload : first.payload = second.payload) : first = second := by
  cases first
  cases second
  simp_all

theorem parse_of_view (records : List StoredRecord) (within : offset < limits.storageCapacity)
    (fits : totalSize records ≤ limits.storageCapacity) (fuel : totalSize records ≤ bound)
    (held : ByteRing.view limits.storageCapacity offset (totalSize records) ring.storage =
      recordBytes records) :
    parseRecords limits ring bound offset (totalSize records) = some records := by
  induction records generalizing offset bound with
  | nil => cases bound <;> rfl
  | cons record records ih =>
    have size := record.size_pos
    rw [totalSize_cons] at fuel fits
    obtain ⟨first, rest⟩ := recordAt_of_view held
    obtain ⟨bound, rfl⟩ : ∃ less, bound = less + 1 := ⟨bound - 1, by omega⟩
    obtain ⟨available, same⟩ : ∃ less, totalSize (record :: records) = less + 1 :=
      ⟨totalSize (record :: records) - 1, by rw [totalSize_cons]; omega⟩
    have header := readHeaderAt_of_record first within
      (show record.size ≤ available + 1 by rw [← same, totalSize_cons]; omega) (by omega)
    have payload := read_payload 0 record.payload.length first (by omega) (by omega)
    rw [Nat.add_zero, List.drop_zero, List.take_length, record.announced] at payload
    have after := ih (Nat.mod_lt (offset + record.size) limits.capacity_pos) (by omega)
      (show totalSize records ≤ bound by omega) (by rwa [ByteRing.view_mod])
    have left : available + 1 - record.header.recordSize = totalSize records := by
      rw [← same, totalSize_cons, StoredRecord.size, Nat.add_sub_cancel_left]
    rw [same, parseRecords]
    split
    · rename_i missing
      simp [header] at missing
    · rename_i found here
      obtain rfl : record.header = found := by simpa [header] using here
      rw [left]
      rw [StoredRecord.size] at after
      rw [after, Option.map_some]
      exact congrArg some (congrArg (· :: records) (record_eq rfl payload))

/-- The retained records are what the ring's own bytes parse to. -/
theorem retained_of_retains (retains : Retains limits ring records) :
    retained limits ring = some records := by
  have fits : totalSize records ≤ limits.storageCapacity := retains.used ▸ retains.within
  rw [retained, retains.used]
  exact parse_of_view records retains.start fits (Nat.le_refl _) retains.stored

theorem retains_empty (limits : Limits) : Retains limits Ring.empty [] where
  start := limits.capacity_pos
  used := rfl
  within := Nat.zero_le _
  stored := rfl
  last := by simp [Ring.empty]
  bounded := nofun

private theorem storedLength_toNat (limits : Limits) (data : List UInt8) :
    (UInt16.ofNat (min data.length (limits.maxPayloadSize * 255))).toNat =
      min data.length (limits.maxPayloadSize * 255) := by
  have := limits.payload_fits
  simp only [UInt16.toNat_ofNat']
  exact Nat.mod_eq_of_lt (by omega)

/-- The record a call stores: its text, cut to what 255 fragments carry. -/
def storedRecord (limits : Limits) (data : List UInt8) (nonempty : data ≠ []) (type : LogType)
    (timestampUs : UInt64) (sequence : UInt32) : StoredRecord where
  header := ⟨timestampUs, sequence, UInt16.ofNat (min data.length (limits.maxPayloadSize * 255)),
    type.code, 0⟩
  payload := data.take (limits.maxPayloadSize * 255)
  announced := by
    rw [storedLength_toNat, List.length_take, Nat.min_comm]
  nonempty := by
    have := limits.tag_leaves_room
    have := List.length_pos_iff.mpr nonempty
    rw [List.length_take]
    omega

theorem storedRecord_bounded {sequence : UInt32} :
    (storedRecord limits data nonempty type timestampUs
    sequence).payload.length ≤ limits.maxPayloadSize * 255 := by
  simp only [storedRecord, List.length_take]
  omega

/-- Header, payload and both counts, as one accepted insertion leaves them. -/
def appendRecord (limits : Limits) (record : StoredRecord) (ring : Ring) : Ring :=
  let written := writeToRing limits record.payload
    (writeToRing limits record.header.encode ring)
  { written with
    usedBytes := add32 ring.usedBytes record.size
    pendingSendBytes := add32 ring.pendingSendBytes record.size }

/-- An insertion either changes nothing or stores its record whole, in space
that was free. -/
theorem insert_cases (ring : Ring) (data : List UInt8) (type : LogType) (timestampUs : UInt64)
    (reserved : Option UInt32) :
    insertLogImpl limits ring data type timestampUs reserved = ring ∨
      ∃ nonempty sequence,
        let record := storedRecord limits data nonempty type timestampUs sequence
        reserved = some sequence ∧ record.size ≤ limits.storageCapacity - ring.usedBytes ∧
          insertLogImpl limits ring data type timestampUs reserved =
            appendRecord limits record ring := by
  by_cases nonempty : data = []
  · exact .inl (by simp [insertLogImpl, nonempty])
  simp only [insertLogImpl, if_neg nonempty]
  split
  · exact .inl rfl
  split
  · exact .inl rfl
  rename_i fits
  cases reserved with
  | none => exact .inl rfl
  | some sequence =>
    have cut : data.take (min data.length (limits.maxPayloadSize * 255)) =
        data.take (limits.maxPayloadSize * 255) := by
      rw [← List.take_take, List.take_of_length_le (by rw [List.length_take]; omega)]
    refine .inr ⟨nonempty, sequence, rfl, Nat.le_of_not_lt fits, ?_⟩
    simp only [appendRecord, storedRecord, StoredRecord.size, StoredLogHeader.recordSize,
      storedLength_toNat, cut]

theorem append_retains (retains : Retains limits ring records)
    (bounded : record.payload.length ≤ limits.maxPayloadSize * 255)
    (fits : record.size ≤ limits.storageCapacity - ring.usedBytes) :
    Retains limits (appendRecord limits record ring) (records ++ [record]) := by
  obtain ⟨start, used, within, stored, last, others⟩ := retains
  have capacity := limits.capacity_fits
  have whole : record.size = record.header.encode.length + record.payload.length := by
    simp [StoredRecord.size, StoredLogHeader.recordSize, record.announced]
  have sum : add32 ring.usedBytes record.size = totalSize records + record.size := by
    rw [add32_eq (by omega), used]
  rw [used] at last fits
  constructor
  · exact start
  · simp [appendRecord, sum]
  · simp only [appendRecord, sum]
    omega
  · have headed := ByteRing.view_write_append ring.storage record.header.encode start
      (show totalSize records + record.header.encode.length ≤ limits.storageCapacity by omega)
    have filled := ByteRing.view_write_append (ByteRing.write limits.storageCapacity
      ring.writeOffset record.header.encode ring.storage) record.payload start
      (show totalSize records + record.header.encode.length + record.payload.length ≤
        limits.storageCapacity by omega)
    have position : (ring.writeOffset + record.header.encode.length) % limits.storageCapacity =
        (ring.readOffset + (totalSize records + record.header.encode.length)) %
          limits.storageCapacity := by
      rw [last, Nat.mod_add_mod, Nat.add_assoc]
    rw [← last, stored] at headed
    rw [headed, ← position] at filled
    rw [totalSize_append, recordBytes_append, totalSize_cons, recordBytes_cons, totalSize_nil,
      recordBytes_nil, whole, List.append_nil, Nat.add_zero, ← Nat.add_assoc,
      StoredRecord.bytes, ← List.append_assoc]
    exact filled
  · have position : (appendRecord limits record ring).usedBytes =
        totalSize records + record.size := sum
    rw [position, whole]
    simp only [appendRecord, writeToRing, last, Nat.mod_add_mod, Nat.add_assoc]
  · intro another member
    rcases List.mem_append.mp member with old | new
    · exact others another old
    · exact List.mem_singleton.mp new ▸ bounded

/-- A record the ring has no room for is refused, and nothing changes. -/
theorem full_ring_refuses
    (full : limits.storageCapacity - ring.usedBytes <
      StoredLogHeader.storedSize + min data.length (limits.maxPayloadSize * 255)) :
    insertLogImpl limits ring data type timestampUs reserved = ring := by
  rcases insert_cases ring data type timestampUs reserved with same | ⟨_, _, _, fits, _⟩
  · exact same
  · simp only [storedRecord, StoredRecord.size, StoredLogHeader.recordSize,
      storedLength_toNat] at fits
    exact absurd full (Nat.not_lt_of_le fits)

/-- Releasing the oldest record takes exactly it off the front. -/
theorem release_retains (retains : Retains limits ring (record :: records)) :
    Retains limits (releaseOldest limits record.header ring) records := by
  obtain ⟨start, used, within, stored, last, bounded⟩ := retains
  have capacity := limits.capacity_fits
  rw [totalSize_cons] at used
  have rest := (recordAt_of_view stored).2
  have less : sub32 ring.usedBytes record.header.recordSize = totalSize records := by
    rw [← StoredRecord.size, sub32_eq (by omega) (by omega)]
    omega
  have same : (releaseOldest limits record.header ring).storage = ring.storage ∧
      (releaseOldest limits record.header ring).writeOffset = ring.writeOffset := by
    unfold releaseOldest
    split <;> exact ⟨rfl, rfl⟩
  have moved : (releaseOldest limits record.header ring).readOffset =
      (ring.readOffset + record.size) % limits.storageCapacity := rfl
  have left : (releaseOldest limits record.header ring).usedBytes = totalSize records := less
  constructor
  · rw [moved]
    exact Nat.mod_lt _ limits.capacity_pos
  · exact left
  · omega
  · rw [moved, same.1, ByteRing.view_mod]
    exact rest
  · rw [moved, left, same.2, last, used, Nat.mod_add_mod, Nat.add_assoc]
  · exact fun another member => bounded another (List.mem_cons_of_mem _ member)

end BallyOS.Logger
