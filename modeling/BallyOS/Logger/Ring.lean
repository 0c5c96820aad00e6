import BallyOS.Library.ByteRing
import BallyOS.Logger.Record

/-! The log ring and its critical sections, each one a function of the ring:
inserting a record, choosing and advancing the record the radio sends, and
releasing the oldest record once the SD card has it. -/
namespace BallyOS.Logger
open Library

/-- The ring's cursors. The radio has its own, which sending moves without
releasing anything. -/
structure Ring where
  storage : ByteRing.Storage
  writeOffset : Nat
  readOffset : Nat
  usedBytes : Nat
  sendOffset : Nat
  pendingSendBytes : Nat
  sendRecordActive : Bool
  sendHeader : StoredLogHeader
  sendRecordBytesDone : Nat

def Ring.empty : Ring where
  storage := fun _ => 0
  writeOffset := 0
  readOffset := 0
  usedBytes := 0
  sendOffset := 0
  pendingSendBytes := 0
  sendRecordActive := false
  sendHeader := ⟨0, 0, 0, 0, 0⟩
  sendRecordBytesDone := 0

/-- `uint32_t` sums and differences. -/
def add32 (first second : Nat) : Nat := (first + second) % 0x100000000

def sub32 (first second : Nat) : Nat := (first + 0x100000000 - second) % 0x100000000

theorem add32_eq (small : first + second < 0x100000000) : add32 first second = first + second :=
  Nat.mod_eq_of_lt small

theorem sub32_eq (small : first < 0x100000000) (le : second ≤ first) :
    sub32 first second = first - second := by
  unfold sub32
  rw [Nat.mod_eq_sub_mod (by omega), Nat.mod_eq_of_lt (by omega)]
  omega

variable (limits : Limits)

def writeToRing (bytes : List UInt8) (ring : Ring) : Ring :=
  { ring with
    storage := ByteRing.write limits.storageCapacity ring.writeOffset bytes ring.storage
    writeOffset := (ring.writeOffset + bytes.length) % limits.storageCapacity }

def readFromRing (ring : Ring) (offset length : Nat) : List UInt8 :=
  ByteRing.read limits.storageCapacity offset length ring.storage

/-- The header at an offset, when a whole record of it can be there. -/
def readHeaderAt (ring : Ring) (offset available : Nat) : Option StoredLogHeader :=
  if available < StoredLogHeader.storedSize then none
  else
    let header := StoredLogHeader.decode (readFromRing limits ring offset StoredLogHeader.storedSize)
    if 0 < header.length.toNat ∧ header.recordSize ≤ available ∧
        header.recordSize ≤ limits.storageCapacity then some header
    else none

/-- `insert_log_impl`, with the sequence the endpoint reserves or none. A full
ring refuses the new record. -/
def insertLogImpl (ring : Ring) (data : List UInt8) (type : LogType) (timestampUs : UInt64)
    (reserved : Option UInt32) : Ring :=
  if data = [] then ring
  else
    let storedLength := UInt16.ofNat (min data.length (limits.maxPayloadSize * 255))
    let required := StoredLogHeader.storedSize + storedLength.toNat
    if required > limits.storageCapacity then ring
    else if limits.storageCapacity - ring.usedBytes < required then ring
    else match reserved with
      | none => ring
      | some sequence =>
        let header : StoredLogHeader := ⟨timestampUs, sequence, storedLength, type.code, 0⟩
        let written := writeToRing limits (data.take storedLength.toNat)
          (writeToRing limits header.encode ring)
        { written with
          usedBytes := add32 ring.usedBytes required
          pendingSendBytes := add32 ring.pendingSendBytes required }

/-- The first locked section of a `flush_logs` packet: which record is being
sent. A new one is read at the send cursor; without one the flush ends. -/
def selectRecord (ring : Ring) : Option Ring :=
  if ring.pendingSendBytes = 0 then none
  else if ring.sendRecordActive then some ring
  else (readHeaderAt limits ring ring.sendOffset ring.pendingSendBytes).map fun header =>
    { ring with sendRecordActive := true, sendHeader := header, sendRecordBytesDone := 0 }

/-- The plaintext a radio chunk may carry: a sealed one leaves room for the tag. -/
def chunkStride (sealed : Bool) : Nat :=
  if sealed then limits.maxPayloadSize - limits.aeadTagSize else limits.maxPayloadSize

/-- The length of the next chunk of the selected record. -/
def chunkLength (ring : Ring) (sealed : Bool) : Nat :=
  min (ring.sendHeader.length.toNat - ring.sendRecordBytesDone) (chunkStride limits sealed)

def chunkPayload (ring : Ring) (sealed : Bool) : List UInt8 :=
  readFromRing limits ring
    ((ring.sendOffset + StoredLogHeader.storedSize + ring.sendRecordBytesDone) %
      limits.storageCapacity)
    (chunkLength limits ring sealed)

/-- The second locked section of a packet, after the frame was accepted. -/
def advanceSend (sent : Nat) (ring : Ring) : Ring :=
  let done := ring.sendRecordBytesDone + sent
  if done ≥ ring.sendHeader.length.toNat then
    { ring with
      sendOffset := (ring.sendOffset + ring.sendHeader.recordSize) % limits.storageCapacity
      pendingSendBytes := sub32 ring.pendingSendBytes ring.sendHeader.recordSize
      sendRecordActive := false
      sendHeader := ⟨0, 0, 0, 0, 0⟩
      sendRecordBytesDone := 0 }
  else { ring with sendRecordBytesDone := done }

/-- The release section of `flush_logs_to`. A record the radio has not taken
yet leaves both cursor ranges; the partly sent one is not forgotten with it. -/
def releaseOldest (header : StoredLogHeader) (ring : Ring) : Ring :=
  let dragged := if ring.pendingSendBytes = ring.usedBytes then
      { ring with
        sendOffset := (ring.sendOffset + header.recordSize) % limits.storageCapacity
        pendingSendBytes := sub32 ring.pendingSendBytes header.recordSize }
    else ring
  { dragged with
    readOffset := (ring.readOffset + header.recordSize) % limits.storageCapacity
    usedBytes := sub32 ring.usedBytes header.recordSize }

theorem readHeaderAt_some {limits : Limits} {ring : Ring}
    (found : readHeaderAt limits ring offset available = some header) :
    0 < header.length.toNat ∧ header.recordSize ≤ available := by
  simp only [readHeaderAt] at found
  split at found
  · cases found
  split at found <;> cases found
  rename_i fits
  exact ⟨fits.1, fits.2.1⟩

/-- The records that start at an offset and fill exactly the given bytes. The
fuel bounds how many there can be. -/
def parseRecords (ring : Ring) : Nat → Nat → Nat → Option (List StoredRecord)
  | _, _, 0 => some []
  | 0, _, _ + 1 => none
  | fuel + 1, offset, available + 1 =>
    match found : readHeaderAt limits ring offset (available + 1) with
    | none => none
    | some header =>
      let record : StoredRecord :=
        { header
          payload := readFromRing limits ring
            ((offset + StoredLogHeader.storedSize) % limits.storageCapacity) header.length.toNat
          announced := ByteRing.length_read
          nonempty := by simpa [readFromRing] using (readHeaderAt_some found).1 }
      (parseRecords ring fuel ((offset + header.recordSize) % limits.storageCapacity)
        (available + 1 - header.recordSize)).map (record :: ·)

/-- What the ring retains, read back from its bytes. -/
def retained (ring : Ring) : Option (List StoredRecord) :=
  parseRecords limits ring ring.usedBytes ring.readOffset ring.usedBytes

end BallyOS.Logger
