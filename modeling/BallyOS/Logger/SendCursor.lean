import BallyOS.Logger.ReadSide

/-! The radio's cursor over the same ring. It stands at a record boundary and,
while a record is partly sent, its saved header is the one stored there. The SD
flush drags the cursor along when it releases the very record the cursor stands
on, but forgets that the record was partly sent; every other step keeps the
two together. -/
namespace BallyOS.Logger
open Library

variable {limits : Limits} {encode : Fragment → Option (List UInt8)} {ring : Ring}

/-- The cursor splits the retained records into sent and unsent ones. -/
structure SendCursor (limits : Limits) (ring : Ring) (sent unsent : List StoredRecord) : Prop where
  retains : Retains limits ring (sent ++ unsent)
  pending : ring.pendingSendBytes = totalSize unsent
  position : ring.sendOffset = (ring.readOffset + totalSize sent) % limits.storageCapacity
  active : ring.sendRecordActive = true → ∃ record rest, unsent = record :: rest ∧
    ring.sendHeader = record.header ∧ ring.sendRecordBytesDone < record.payload.length

/-- The ring's representation invariant, read off its own fields and bytes. -/
structure RingInvariant (limits : Limits) (ring : Ring) : Prop where
  write : ring.writeOffset = (ring.readOffset + ring.usedBytes) % limits.storageCapacity
  pendingWithin : ring.pendingSendBytes ≤ ring.usedBytes
  usedWithin : ring.usedBytes ≤ limits.storageCapacity
  send : ring.sendOffset =
    (ring.readOffset + ring.usedBytes - ring.pendingSendBytes) % limits.storageCapacity
  boundary : ∃ sent unsent, retained limits ring = some (sent ++ unsent) ∧
    parseRecords limits ring (ring.usedBytes - ring.pendingSendBytes) ring.readOffset
      (ring.usedBytes - ring.pendingSendBytes) = some sent ∧
    parseRecords limits ring ring.pendingSendBytes ring.sendOffset ring.pendingSendBytes =
      some unsent
  active : ring.sendRecordActive = true →
    readHeaderAt limits ring ring.sendOffset ring.pendingSendBytes = some ring.sendHeader ∧
      ring.sendRecordBytesDone < ring.sendHeader.length.toNat ∧
      ring.sendHeader.recordSize ≤ ring.pendingSendBytes

/-- The unsent records lie at the send cursor. -/
private theorem unsent_view (cursor : SendCursor limits ring sent unsent) :
    ByteRing.view limits.storageCapacity ring.sendOffset (totalSize unsent) ring.storage =
      recordBytes unsent := by
  have stored := cursor.retains.stored
  rw [totalSize_append, recordBytes_append, ByteRing.view_add] at stored
  rw [cursor.position, ByteRing.view_mod]
  exact (List.append_inj stored (by simp)).2

private theorem sent_view (cursor : SendCursor limits ring sent unsent) :
    ByteRing.view limits.storageCapacity ring.readOffset (totalSize sent) ring.storage =
      recordBytes sent := by
  have stored := cursor.retains.stored
  rw [totalSize_append, recordBytes_append, ByteRing.view_add] at stored
  exact (List.append_inj stored (by simp)).1

private theorem cursor_within (cursor : SendCursor limits ring sent unsent) :
    ring.sendOffset < limits.storageCapacity := by
  rw [cursor.position]
  exact Nat.mod_lt _ limits.capacity_pos

/-- With something to send, the record at the cursor is whole. -/
private theorem record_at_cursor (cursor : SendCursor limits ring sent (record :: rest)) :
    readHeaderAt limits ring ring.sendOffset ring.pendingSendBytes = some record.header := by
  have fits := cursor.retains.within
  rw [cursor.retains.used, totalSize_append, totalSize_cons] at fits
  have here := (recordAt_of_view (unsent_view cursor)).1
  refine readHeaderAt_of_record here (cursor_within cursor) ?_ (by omega)
  rw [cursor.pending, totalSize_cons]
  omega

private theorem invariant_of_cursor (cursor : SendCursor limits ring sent unsent) :
    RingInvariant limits ring := by
  have used := cursor.retains.used
  have within := cursor.retains.within
  have pending := cursor.pending
  rw [totalSize_append] at used
  have first : ring.usedBytes - ring.pendingSendBytes = totalSize sent := by omega
  have position : ring.readOffset + ring.usedBytes - ring.pendingSendBytes =
      ring.readOffset + totalSize sent := by omega
  refine ⟨cursor.retains.last, by omega, within, ?_, ?_, ?_⟩
  · rw [position]
    exact cursor.position
  · refine ⟨sent, unsent, retained_of_retains cursor.retains, ?_, ?_⟩
    · rw [first]
      exact parse_of_view sent cursor.retains.start (by omega) (Nat.le_refl _) (sent_view cursor)
    · rw [pending]
      exact parse_of_view unsent (cursor_within cursor) (by omega) (Nat.le_refl _)
        (unsent_view cursor)
  · intro set
    obtain ⟨record, rest, rfl, header, progress⟩ := cursor.active set
    have found := record_at_cursor cursor
    rw [header]
    exact ⟨found, record.announced ▸ progress, (readHeaderAt_some found).2⟩

/-- A new record is unsent, and what was being sent still is. -/
private theorem cursor_append (cursor : SendCursor limits ring sent unsent)
    (bounded : record.payload.length ≤ limits.maxPayloadSize * 255)
    (fits : record.size ≤ limits.storageCapacity - ring.usedBytes) :
    SendCursor limits (appendRecord limits record ring) sent (unsent ++ [record]) := by
  obtain ⟨retains, pending, position, active⟩ := cursor
  have used := retains.used
  have within := retains.within
  have capacity := limits.capacity_fits
  rw [totalSize_append] at used
  constructor
  · rw [← List.append_assoc]
    exact append_retains retains bounded fits
  · have sum : add32 ring.pendingSendBytes record.size = totalSize unsent + record.size := by
      rw [add32_eq (by omega), pending]
    simp [appendRecord, sum]
  · exact position
  · intro set
    obtain ⟨first, rest, rfl, header, progress⟩ := active set
    exact ⟨first, rest ++ [record], rfl, header, progress⟩

private theorem cursor_select (cursor : SendCursor limits ring sent unsent)
    (selected : selectRecord limits ring = some ring') :
    SendCursor limits ring' sent unsent := by
  have kept := retains_select cursor.retains selected
  simp only [selectRecord] at selected
  split at selected
  · cases selected
  rename_i waiting
  split at selected
  · cases selected
    exact cursor
  · obtain ⟨header, found, rfl⟩ := Option.map_eq_some_iff.mp selected
    refine ⟨kept, cursor.pending, cursor.position, fun _ => ?_⟩
    cases unsent with
    | nil => exact absurd cursor.pending waiting
    | cons record rest =>
      cases found.symm.trans (record_at_cursor cursor)
      exact ⟨record, rest, rfl, rfl, record.nonempty⟩

/-- A finished record's size is what the cursor and the count move by. -/
private theorem cursor_advance (cursor : SendCursor limits ring sent unsent)
    (set : ring.sendRecordActive = true) :
    ∃ sent' unsent', sent' ++ unsent' = sent ++ unsent ∧
      SendCursor limits (advanceSend limits chunk ring) sent' unsent' := by
  have kept : Retains limits (advanceSend limits chunk ring) (sent ++ unsent) :=
    retains_advance cursor.retains
  obtain ⟨retains, pending, position, active⟩ := cursor
  obtain ⟨record, rest, rfl, header, progress⟩ := active set
  have used := retains.used
  have within := retains.within
  have capacity := limits.capacity_fits
  rw [totalSize_append, totalSize_cons] at used
  simp only [totalSize_cons] at pending
  unfold advanceSend at kept ⊢
  simp only [header, StoredRecord.recordSize_header] at kept ⊢
  split at kept
  · rename_i finished
    rw [if_pos finished]
    refine ⟨sent ++ [record], rest, by simp, ?_, ?_, ?_, nofun⟩
    · simpa using kept
    · show sub32 ring.pendingSendBytes record.size = totalSize rest
      rw [sub32_eq (by omega) (by omega)]
      omega
    · simp only [position, totalSize_append, totalSize_cons, totalSize_nil, Nat.mod_add_mod,
        Nat.add_zero, Nat.add_assoc]
  · rename_i unfinished
    rw [if_neg unfinished]
    refine ⟨sent, record :: rest, rfl, kept, pending, position, fun _ => ?_⟩
    exact ⟨record, rest, rfl, rfl, record.announced ▸ Nat.lt_of_not_le unfinished⟩

/-- Releasing the oldest record keeps the cursor, unless that record was
partly sent. -/
private theorem cursor_release (cursor : SendCursor limits ring sent unsent)
    (split : sent ++ unsent = record :: records)
    (fresh : ¬(ring.sendRecordActive = true ∧ ring.pendingSendBytes = ring.usedBytes)) :
    ∃ sent' unsent', sent' ++ unsent' = records ∧
      SendCursor limits (releaseOldest limits record.header ring) sent' unsent' := by
  obtain ⟨retains, pending, position, active⟩ := cursor
  have used := retains.used
  have within := retains.within
  have capacity := limits.capacity_fits
  have kept : Retains limits (releaseOldest limits record.header ring) records :=
    release_retains (split ▸ retains)
  rw [totalSize_append] at used
  unfold releaseOldest at kept ⊢
  simp only [StoredRecord.recordSize_header] at kept ⊢
  by_cases whole : ring.pendingSendBytes = ring.usedBytes
  · -- Nothing retained was sent, so the cursor stands on the released record.
    obtain rfl : sent = [] := totalSize_eq_zero (by omega)
    obtain rfl : unsent = record :: records := split
    simp only [totalSize_cons] at pending
    simp only [if_pos whole] at kept ⊢
    refine ⟨[], records, rfl, kept, ?_, ?_, fun set => absurd ⟨set, whole⟩ fresh⟩
    · show sub32 ring.pendingSendBytes record.size = totalSize records
      rw [sub32_eq (by omega) (by omega)]
      omega
    · simp [position]
  · cases sent with
    | nil => exact absurd (by rw [pending, used, totalSize_nil, Nat.zero_add]) whole
    | cons first sent =>
      obtain ⟨rfl, rfl⟩ := List.cons.inj split
      simp only [if_neg whole] at kept ⊢
      refine ⟨sent, unsent, rfl, kept, pending, ?_, active⟩
      simp only [position, totalSize_cons, Nat.mod_add_mod, Nat.add_assoc]

/-- The SD flush never releases a record the radio has partly sent. -/
def ReleasesWhole (world : World) : Event → Prop
  | .sdRelease => ¬(world.ring.sendRecordActive = true ∧
      world.ring.pendingSendBytes = world.ring.usedBytes)
  | _ => True

structure Sending (limits : Limits) (world : World) : Prop where
  readable : Readable limits world
  cursor : ∃ sent unsent, SendCursor limits world.ring sent unsent

/-- The bytes determine the records, however they were split. -/
theorem retains_unique (one : Retains limits ring first) (two : Retains limits ring second) :
    first = second :=
  Option.some.inj ((retained_of_retains one).symm.trans (retained_of_retains two))

private theorem cursor_step (sending : Sending limits world)
    (whole : ReleasesWhole world event)
    (stepped : step limits encode world event = some next) :
    ∃ sent unsent, SendCursor limits next.ring sent unsent := by
  obtain ⟨⟨kept, inserted, reading⟩, sent, unsent, cursor⟩ := sending
  cases moved_of_step stepped with
  | @inserted data type timestampUs reserved =>
    rcases @insert_cases limits world.ring data type timestampUs reserved with
      same | ⟨_, _, _, fits, appended⟩
    · rw [same]
      exact ⟨sent, unsent, cursor⟩
    · rw [appended]
      exact ⟨sent, _, cursor_append cursor storedRecord_bounded fits⟩
  | radioRefused _ selected | radioSent _ selected =>
    exact ⟨sent, unsent, cursor_select cursor selected⟩
  | radioAdvanced _ set =>
    obtain ⟨sent', unsent', _, after⟩ := cursor_advance cursor set
    exact ⟨sent', unsent', after⟩
  | released here =>
    have stage := reading.stage
    rw [here] at stage
    obtain ⟨record, rest, rfl, _, rfl⟩ := stage
    obtain ⟨sent', unsent', _, after⟩ :=
      cursor_release cursor (retains_unique cursor.retains reading.retains) whole
    exact ⟨sent', unsent', after⟩
  | _ => exact ⟨sent, unsent, cursor⟩

private theorem sending_step (sending : Sending limits world) (whole : ReleasesWhole world event)
    (stepped : step limits encode world event = some next) : Sending limits next :=
  ⟨readable_step sending.readable stepped, cursor_step sending whole stepped⟩

private theorem sending_initial : Sending limits World.initial where
  readable := ⟨[], [], reading_initial⟩
  cursor := ⟨[], [], retains_empty limits, rfl, by simp [World.initial, Ring.empty], nofun⟩

/-- The ring's representation invariant holds in every state of every run in
which the SD flush releases no record that the radio has partly sent. -/
theorem ring_invariant_of_run
    (whole : Along (step limits encode) ReleasesWhole World.initial events)
    (ran : run (step limits encode) World.initial events = some world) :
    RingInvariant limits world.ring := by
  have sending : Sending limits world :=
    run_invariant_along (fun held met stepped => sending_step held met stepped)
      sending_initial whole ran
  obtain ⟨sent, unsent, cursor⟩ := sending.cursor
  exact invariant_of_cursor cursor

/-- The radio takes the first record and refuses the second. -/
def refusedFrameTrace : List Event :=
  [.configureBtp true, .insertLog [65] .info 10 (some 1), .insertLog [66, 67] .warn 20 (some 2),
    .flushLogs 5, .radioChunk true none true, .radioAdvance, .radioChunk true none false]

private theorem refused_frame_trace_releases_whole :
    Along (step espNowLimits plainCodec) ReleasesWhole World.initial refusedFrameTrace := by
  repeat refine along_of_step trivial rfl ?_
  exact trivial

theorem ring_invariant_of_refused_frame_trace : ∃ world,
    run (step espNowLimits plainCodec) World.initial refusedFrameTrace = some world ∧
      world.ring.sendRecordActive = true ∧ RingInvariant espNowLimits world.ring :=
  ⟨_, rfl, rfl, ring_invariant_of_run refused_frame_trace_releases_whole rfl⟩

/-- The radio refuses the first record's frame, then the SD card saves it. -/
def savedWhilePendingTrace : List Event :=
  [.configureBtp false, .insertLog [65] .info 10 (some 1), .insertLog [66, 67] .warn 20 (some 2),
    .flushLogs 5, .radioChunk true none false, .endConsumer, .flushLogsTo, .sdSnapshot, .sdHeader,
    .sdFragment true, .sdFragment true, .sdRelease]

/-- A record released while the radio was at it leaves its header behind for
the next record. -/
theorem released_pending_record_breaks_invariant : ¬∀ events world,
    run (step espNowLimits plainCodec) World.initial events = some world →
      RingInvariant espNowLimits world.ring := by
  intro every
  have broken := (every savedWhilePendingTrace _ rfl).active rfl
  exact absurd broken.1 (by decide)

end BallyOS.Logger
