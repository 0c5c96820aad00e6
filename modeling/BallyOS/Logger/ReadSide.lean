import BallyOS.Logger.Consumers
import BallyOS.Logger.Retained

/-! The read side of the ring over whole runs. What is retained splits into the
records the current SD flush still has to save and those inserted after its
snapshot; the flush's local variables always describe the oldest one. The
radio's cursor plays no part. -/
namespace BallyOS.Logger
open Library

variable {limits : Limits} {encode : Fragment → Option (List UInt8)}

/-- What the SD flush's local variables say about the records it has left. -/
def ReadStage (readOffset : Nat) (kept : List StoredRecord) : Consumer → Prop
  | .sdHeader bytesRemaining => bytesRemaining = totalSize kept
  | .sdFragment bytesRemaining header recordOffset _ => ∃ record rest, kept = record :: rest ∧
      bytesRemaining = totalSize kept ∧ header = record.header ∧ recordOffset = readOffset
  | .sdRelease bytesRemaining header => ∃ record rest, kept = record :: rest ∧
      bytesRemaining = totalSize kept ∧ header = record.header
  | _ => True

structure Reading (limits : Limits) (world : World) (kept inserted : List StoredRecord) :
    Prop where
  retains : Retains limits world.ring (kept ++ inserted)
  configured : kept ++ inserted ≠ [] → world.endpoint = true
  stage : ReadStage world.ring.readOffset kept world.consumer

/-- How one event changes the two parts. -/
def Outcome (event : Event) (kept inserted kept' inserted' : List StoredRecord) : Prop :=
  match event with
  | .insertLog .. => kept' = kept ∧ (inserted' = inserted ∨ ∃ record, inserted' = inserted ++ [record])
  | .sdSnapshot => kept' = kept ++ inserted ∧ inserted' = []
  | .sdRelease => ∃ record, kept = record :: kept' ∧ inserted' = inserted
  | _ => kept' = kept ∧ inserted' = inserted

/-- Only the storage and the read side's cursors decide what is retained. -/
theorem retains_congr {ring ring' : Ring} (retains : Retains limits ring records)
    (storage : ring'.storage = ring.storage) (write : ring'.writeOffset = ring.writeOffset)
    (read : ring'.readOffset = ring.readOffset) (used : ring'.usedBytes = ring.usedBytes) :
    Retains limits ring' records := by
  obtain ⟨start, size, within, stored, last, bounded⟩ := retains
  exact ⟨by rwa [read], by rwa [used], by rwa [used], by rwa [read, storage],
    by rwa [write, read, used], bounded⟩

/-- Choosing the record to send leaves the read side alone. -/
theorem retains_select {ring ring' : Ring} (retains : Retains limits ring records)
    (selected : selectRecord limits ring = some ring') : Retains limits ring' records := by
  simp only [selectRecord] at selected
  split at selected
  · cases selected
  split at selected
  · cases selected
    exact retains
  · obtain ⟨header, _, rfl⟩ := Option.map_eq_some_iff.mp selected
    exact retains_congr retains rfl rfl rfl rfl

theorem retains_advance {ring : Ring} (retains : Retains limits ring records) :
    Retains limits (advanceSend limits sent ring) records := by
  simp only [advanceSend]
  split <;> exact retains_congr retains rfl rfl rfl rfl

private theorem reading_inserted (reading : Reading limits world kept inserted)
    (ready : world.endpoint = true) : ∃ inserted',
      Reading limits { world with
        ring := insertLogImpl limits world.ring data type timestampUs reserved } kept inserted' ∧
      (inserted' = inserted ∨ ∃ record, inserted' = inserted ++ [record]) := by
  obtain ⟨retains, configured, stage⟩ := reading
  rcases @insert_cases limits world.ring data type timestampUs reserved with
    same | ⟨nonempty, sequence, _, fits, appended⟩
  · rw [same]
    exact ⟨inserted, ⟨retains, configured, stage⟩, .inl rfl⟩
  · rw [appended]
    have after := append_retains retains storedRecord_bounded fits
    rw [List.append_assoc] at after
    exact ⟨_, ⟨after, fun _ => ready, stage⟩, .inr ⟨_, rfl⟩⟩

theorem reading_headerRead (reading : Reading limits world kept inserted)
    (here : world.consumer = .sdHeader (less + 1)) :
    ∃ record rest, kept = record :: rest ∧
      readHeaderAt limits world.ring world.ring.readOffset (less + 1) = some record.header := by
  obtain ⟨retains, _, stage⟩ := reading
  simp only [here, ReadStage] at stage
  cases kept with
  | nil => simp at stage
  | cons record rest =>
    have fits : totalSize (record :: rest ++ inserted) ≤ limits.storageCapacity :=
      retains.used ▸ retains.within
    simp only [List.cons_append, totalSize_cons] at stage fits
    refine ⟨record, rest, rfl, ?_⟩
    exact readHeaderAt_of_record (recordAt_of_view retains.stored).1 retains.start
      (by omega) (by omega)

/-- The read side follows every event, and each changes the two parts in the
one way that is its purpose. -/
theorem reading_step (reading : Reading limits world kept inserted)
    (stepped : step limits encode world event = some next) :
    ∃ kept' inserted', Reading limits next kept' inserted' ∧
      Outcome event kept inserted kept' inserted' := by
  have whole := reading
  obtain ⟨retains, configured, stage⟩ := reading
  cases moved_of_step stepped with
  | configured => exact ⟨kept, inserted, ⟨retains, fun _ => rfl, stage⟩, rfl, rfl⟩
  | ignored => exact ⟨kept, inserted, whole, rfl, .inl rfl⟩
  | inserted ready =>
    obtain ⟨inserted', after, outcome⟩ := reading_inserted whole ready
    exact ⟨kept, inserted', after, rfl, outcome⟩
  | radioBusy | sdBusy => exact ⟨kept, inserted, whole, rfl, rfl⟩
  | radioBegan | sdBegan | radioStopped | radioLost | sdDone | headerMissing | fragmentMissing
  | fragmentRefused | ended =>
    exact ⟨kept, inserted, ⟨retains, configured, trivial⟩, rfl, rfl⟩
  | radioRefused _ selected | radioSent _ selected =>
    exact ⟨kept, inserted, ⟨retains_select retains selected, configured, trivial⟩, rfl, rfl⟩
  | radioAdvanced =>
    exact ⟨kept, inserted, ⟨retains_advance retains, configured, trivial⟩, rfl, rfl⟩
  | snapshotTaken =>
    refine ⟨kept ++ inserted, [], ⟨?_, ?_, ?_⟩, rfl, rfl⟩
    · simpa using retains
    · simpa using configured
    · exact retains.used
  | headerRead here found =>
    obtain ⟨record, rest, split, header⟩ := reading_headerRead whole here
    simp only [here, ReadStage] at stage
    cases found.symm.trans header
    exact ⟨kept, inserted, ⟨retains, configured, record, rest, split, stage, rfl, rfl⟩, rfl, rfl⟩
  | fragmentStored here =>
    simp only [here] at stage
    exact ⟨kept, inserted, ⟨retains, configured, stage⟩, rfl, rfl⟩
  | fragmentsDone here =>
    simp only [here] at stage
    obtain ⟨record, rest, split, size, header, _⟩ := stage
    exact ⟨kept, inserted, ⟨retains, configured, record, rest, split, size, header⟩, rfl, rfl⟩
  | released here =>
    simp only [here] at stage
    obtain ⟨record, rest, rfl, rfl, rfl⟩ := stage
    have after := release_retains retains
    have fits : totalSize (record :: rest ++ inserted) ≤ limits.storageCapacity :=
      retains.used ▸ retains.within
    have capacity := limits.capacity_fits
    refine ⟨rest, inserted, ⟨after, fun _ => configured (by simp), ?_⟩, record, rfl, rfl⟩
    simp only [List.cons_append, totalSize_cons, totalSize_append] at fits
    simp only [ReadStage, totalSize_cons, StoredRecord.recordSize_header]
    rw [sub32_eq (by omega) (by omega), Nat.add_sub_cancel_left]

theorem reading_initial : Reading limits World.initial [] [] :=
  ⟨retains_empty limits, fun some => absurd rfl some, trivial⟩

/-- The ring's bytes are whole retained records. -/
def Readable (limits : Limits) (world : World) : Prop :=
  ∃ kept inserted, Reading limits world kept inserted

theorem readable_step (readable : Readable limits world)
    (stepped : step limits encode world event = some next) : Readable limits next := by
  obtain ⟨kept, inserted, reading⟩ := readable
  obtain ⟨kept', inserted', after, _⟩ := reading_step reading stepped
  exact ⟨kept', inserted', after⟩

theorem readable_of_run (ran : run (step limits encode) World.initial events = some world) :
    Readable limits world :=
  run_invariant (fun held stepped => readable_step held stepped) ⟨[], [], reading_initial⟩ ran

end BallyOS.Logger
