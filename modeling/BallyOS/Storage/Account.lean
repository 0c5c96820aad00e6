import BallyOS.Logger.SdFlush
import BallyOS.Storage.LogFlush

/-! The records of one boot against the frames on the card. Every record the
ring took in has been saved or is still retained, in the order it came; the
card took the frames of the saved ones, in order, and besides them only frames
of a record whose flush was broken off and which is saved again later. -/
namespace BallyOS.Storage
open Library Logger

variable {Key : Type} {names : Path → Key} {mountPoint : Path}
  {limits : Limits} {encode : Fragment → Option (List UInt8)} {system next : System names}

/-! ### What one call of `insert_log` adds -/

private theorem insertLogImpl_grows {sequence : UInt32} (limits : Limits) (ring : Ring)
    (nonempty : data ≠ [])
    (fits : (storedRecord limits data nonempty type timestampUs sequence).size ≤
      limits.storageCapacity - ring.usedBytes) :
    (insertLogImpl limits ring data type timestampUs (some sequence)).usedBytes =
      add32 ring.usedBytes (storedRecord limits data nonempty type timestampUs sequence).size := by
  have size : (storedRecord limits data nonempty type timestampUs sequence).size =
      StoredLogHeader.storedSize +
        (UInt16.ofNat (min data.length (limits.maxPayloadSize * 255))).toNat := rfl
  rw [size] at fits ⊢
  simp only [insertLogImpl, if_neg nonempty]
  rw [if_neg (by omega), if_neg (by omega)]

/-- A record is accepted exactly when the ring takes it in. -/
theorem insertLog_accepted (limits : Limits) (world : World) (data : List UInt8) (type : LogType)
    (timestampUs : UInt64) (reserved : Option UInt32)
    (small : world.ring.usedBytes ≤ limits.storageCapacity) :
    acceptedRecord limits world (.insertLog data type timestampUs reserved) = none ∧
        Logger.insertLog limits world data type timestampUs reserved = world ∨
      ∃ record, acceptedRecord limits world (.insertLog data type timestampUs reserved) =
          some record ∧ world.endpoint = true ∧
        record.payload.length ≤ limits.maxPayloadSize * 255 ∧
        record.size ≤ limits.storageCapacity - world.ring.usedBytes ∧
        Logger.insertLog limits world data type timestampUs reserved =
          { world with ring := appendRecord limits record world.ring } := by
  unfold Logger.insertLog
  by_cases ready : world.endpoint = true
  · rw [if_pos ready]
    rcases @insert_cases limits world.ring data type timestampUs reserved with
      same | ⟨nonempty, sequence, rfl, fits, appended⟩
    · left
      refine ⟨?_, by rw [same]⟩
      cases reserved with
      | none => rfl
      | some sequence =>
        simp only [acceptedRecord]
        split
        · rfl
        rename_i nonempty
        rw [if_neg]
        rintro ⟨_, fits⟩
        -- A ring that took the record in would hold more than it did.
        have grown := insertLogImpl_grows limits world.ring nonempty fits
        have size := (storedRecord limits data nonempty type timestampUs sequence).size_pos
        have capacity := limits.capacity_fits
        rw [same, add32_eq (by omega)] at grown
        omega
    · right
      refine ⟨_, ?_, ready, storedRecord_bounded, fits, by rw [appended]⟩
      rw [acceptedRecord, dif_neg nonempty, if_pos ⟨ready, fits⟩]
  · left
    rw [if_neg ready]
    refine ⟨?_, rfl⟩
    cases reserved with
    | none => rfl
    | some sequence => simp [acceptedRecord, ready]

/-! ### The account -/

/-- How many frames of the record that is next are on the card. -/
def CountStage (limits : Limits) (kept : List StoredRecord) (count : Nat) : Consumer → Prop
  | .sdFragment _ _ _ packet =>
    count = packet.toNat ∧ count ≤ (headFragments limits kept).length
  | .sdRelease .. => count = (headFragments limits kept).length
  | _ => count = 0

/-- The records of this boot: saved, kept for the flush under way, inserted
since; and the frames the card took. `strict` says that no flush was broken off. -/
structure Account (limits : Limits) (encode : Fragment → Option (List UInt8)) (strict : Prop)
    (saved kept inserted : List StoredRecord) (count : Nat)
    (system : System names) : Prop where
  reading : Reading limits system.world kept inserted
  accepted : system.accepted = saved ++ kept ++ inserted
  taken : ∃ earlier, system.taken.map (fun frame => some frame.2) =
      earlier ++ ((headFragments limits kept).take count).map encode ∧
    ((saved.flatMap (StoredRecord.fragments limits)).map encode).Sublist earlier ∧
    (strict → earlier = (saved.flatMap (StoredRecord.fragments limits)).map encode)
  stage : CountStage limits kept count system.world.consumer

/-- The card does what it is asked: it takes every frame whole, closes every
file and keeps its power. -/
def Healthy (limits : Limits) (encode : Fragment → Option (List UInt8)) (system : System names) :
    Event names → Prop
  | .fragment accepted => ∀ frame, pendingFrame limits encode system.world = some frame →
      frame.length ≤ accepted
  | .closeFlush closed _ => closed = true
  | .powerLoss _ => False
  | _ => True

/-- The account has an entry for every record. -/
def Accounts (limits : Limits) (encode : Fragment → Option (List UInt8)) (strict : Prop)
    (system : System names) : Prop :=
  ∃ saved kept inserted count, Account limits encode strict saved kept inserted count system

/-- Nothing but the logger's state, the frames taken and the records accepted counts. -/
theorem accounts_congr {strict : Prop}
    (accounts : Accounts limits encode strict system) (world : next.world = system.world)
    (accepted : next.accepted = system.accepted) (taken : next.taken = system.taken) :
    Accounts limits encode strict next := by
  obtain ⟨saved, kept, inserted, count, reading, entries, frames, stage⟩ := accounts
  exact ⟨saved, kept, inserted, count, world ▸ reading, accepted ▸ entries, taken ▸ frames,
    world ▸ stage⟩

/-! ### Every step keeps it -/

private theorem account_inserted {strict : Prop}
    (account : Account limits encode strict saved kept inserted count system)
    (data : List UInt8) (type : LogType) (timestampUs : UInt64) (reserved : Option UInt32) :
    Accounts limits encode strict { system with
      world := Logger.insertLog limits system.world data type timestampUs reserved
      accepted := system.accepted ++ (acceptedRecord limits system.world
        (.insertLog data type timestampUs reserved)).toList } := by
  obtain ⟨⟨retains, configured, readStage⟩, entries, frames, stage⟩ := account
  rcases insertLog_accepted limits system.world data type timestampUs reserved retains.within with
    ⟨none, same⟩ | ⟨record, some, ready, bounded, fits, grown⟩
  · rw [none, same, Option.toList_none, List.append_nil]
    exact ⟨saved, kept, inserted, count, ⟨retains, configured, readStage⟩, entries, frames, stage⟩
  · rw [some, grown, Option.toList_some]
    have after := append_retains retains bounded fits
    rw [List.append_assoc] at after
    refine ⟨saved, kept, inserted ++ [record], count, ⟨after, fun _ => ready, readStage⟩,
      ?_, frames,
      stage⟩
    simp only [entries, List.append_assoc]

/-- The whole frames of a record go with it when it is released. -/
private theorem account_released {strict : Prop}
    (account : Account limits encode strict saved (record :: kept) inserted count system)
    (here : system.world.consumer = .sdRelease bytesRemaining header)
    (reading : Reading limits world kept inserted) (moved : world.consumer = .sdHeader left) :
    Account limits encode strict (saved ++ [record]) kept inserted 0
      { system with world } := by
  obtain ⟨_, entries, ⟨earlier, taken, covers, exact'⟩, stage⟩ := account
  simp only [here, CountStage, headFragments] at stage
  refine ⟨reading, ?_, ⟨earlier ++ (record.fragments limits).map encode, ?_, ?_, ?_⟩, ?_⟩
  · simp only [entries, List.append_assoc, List.cons_append, List.nil_append]
  · rw [taken, stage, headFragments, List.take_length]
    simp
  · simp only [List.flatMap_append, List.map_append, List.flatMap_cons, List.flatMap_nil,
      List.append_nil]
    exact covers.append_right _
  · intro whole
    simp [exact' whole]
  · simp only [moved, CountStage]

private theorem account_logger {strict : Prop}
    (account : Account limits encode strict saved kept inserted count system)
    (foreign : ownedByFlush system.world event = false)
    (stepped : Logger.step limits encode system.world event = some world) :
    Accounts limits encode strict { system with
      world
      accepted := system.accepted ++ (acceptedRecord limits system.world event).toList } := by
  have whole := account
  obtain ⟨kept', inserted', reading, outcome⟩ := reading_step account.reading stepped
  obtain ⟨_, entries, frames, stage⟩ := account
  have taken : ∀ event, (∀ data type timestampUs reserved,
      event ≠ .insertLog data type timestampUs reserved) →
        acceptedRecord limits system.world event = none := by
    intro event other
    cases event with
    | insertLog data type timestampUs reserved => exact absurd rfl (other _ _ _ _)
    | _ => rfl
  cases moved_of_step stepped with
  | sdBusy | sdBegan | fragmentMissing | fragmentStored | fragmentRefused | fragmentsDone =>
    cases foreign
  | @ignored data type timestampUs reserved | @inserted data type timestampUs reserved =>
    have after := account_inserted whole data type timestampUs reserved
    rw [Option.some.inj stepped] at after
    exact after
  | configured | radioBusy =>
    obtain ⟨rfl, rfl⟩ := outcome
    exact ⟨saved, _, _, count, reading, by simp [taken, entries], frames, stage⟩
  | radioBegan here | radioStopped here | radioRefused here | radioSent here | radioAdvanced here
  | radioLost here =>
    obtain ⟨rfl, rfl⟩ := outcome
    simp only [here, CountStage] at stage
    subst stage
    exact ⟨saved, _, _, 0, reading, by simp [taken, entries], frames, rfl⟩
  | snapshotTaken here =>
    obtain ⟨rfl, rfl⟩ := outcome
    simp only [here, CountStage] at stage
    subst stage
    refine ⟨saved, _, _, 0, reading, by simp [taken, entries], ?_, rfl⟩
    simpa using frames
  | sdDone here | headerMissing here =>
    obtain ⟨rfl, rfl⟩ := outcome
    simp only [here, CountStage] at stage
    subst stage
    exact ⟨saved, _, _, 0, reading, by simp [taken, entries], frames, rfl⟩
  | headerRead here =>
    obtain ⟨rfl, rfl⟩ := outcome
    simp only [here, CountStage] at stage
    subst stage
    exact ⟨saved, _, _, 0, reading, by simp [taken, entries], frames, rfl, Nat.zero_le _⟩
  | released here =>
    obtain ⟨record, rfl, rfl⟩ := outcome
    have after := account_released whole here reading rfl
    exact ⟨_, _, _, 0, after.reading, by simpa [taken] using after.accepted, after.taken,
      after.stage⟩
  | ended =>
    obtain ⟨rfl, rfl⟩ := outcome
    simp only [ownedByFlush, ne_eq, decide_eq_false_iff_not, not_not] at foreign
    simp only [foreign, CountStage] at stage
    subst stage
    exact ⟨saved, _, _, 0, reading, by simp [taken, entries], frames, rfl⟩

private theorem pendingFrame_eq_none (encodes : Encodes limits encode)
    (reading : Reading limits world kept inserted)
    (here : world.consumer = .sdFragment bytesRemaining header recordOffset packet)
    (none : pendingFrame limits encode world = none) : ¬packet < fragmentCount limits header := by
  intro more
  have stage := reading.stage
  rw [here] at stage
  obtain ⟨record, rest, rfl, _, rfl, rfl⟩ := stage
  have ready := reading.configured (by simp)
  obtain ⟨_, nonempty, small⟩ := ringFragment_eq reading.retains more
  obtain ⟨frame, coded⟩ := encodes _ nonempty small more
  simp only [pendingFrame, here] at none
  rw [if_pos ⟨more, ready⟩, coded] at none
  cases none

/-- A frame that is about to be handed over is the next one of its record. -/
theorem pendingFrame_eq_some (reading : Reading limits world kept inserted)
    (pending : pendingFrame limits encode world = some frame) :
    ∃ bytesRemaining header recordOffset packet,
      world.consumer = .sdFragment bytesRemaining header recordOffset packet ∧
      packet < fragmentCount limits header ∧ world.endpoint = true ∧
      encode (ringFragment limits world.ring header recordOffset packet) = some frame ∧
      (headFragments limits kept)[packet.toNat]? =
        some (ringFragment limits world.ring header recordOffset packet) := by
  unfold pendingFrame at pending
  split at pending
  · rename_i bytesRemaining header recordOffset packet here
    split at pending
    · rename_i due
      have stage := reading.stage
      rw [here] at stage
      obtain ⟨record, rest, rfl, _, rfl, rfl⟩ := stage
      exact ⟨_, _, _, _, here, due.1, due.2, pending, (ringFragment_eq reading.retains due.1).1⟩
    · cases pending
  · cases pending

/-- A frame the card took whole is the next one of the record being saved. -/
private theorem account_stored {strict : Prop}
    (account : Account limits encode strict saved kept inserted count system)
    (pending : pendingFrame limits encode system.world = some frame)
    (stepped : Logger.step limits encode system.world (.sdFragment true) = some world)
    (path : Path) (card : Card names) :
    Accounts limits encode strict
      { system with world, card, taken := system.taken ++ [(path, frame)] } := by
  obtain ⟨_, _, reading, rfl, rfl⟩ := reading_step account.reading stepped
  obtain ⟨bytesRemaining, header, recordOffset, packet, here, more, ready, coded, due⟩ :=
    pendingFrame_eq_some account.reading pending
  obtain ⟨_, entries, ⟨earlier, taken, covers, exact'⟩, stage⟩ := account
  simp only [here, CountStage] at stage
  obtain ⟨rfl, _⟩ := stage
  have moved : world = { system.world with
      offered := system.world.offered ++ [frame]
      stored := system.world.stored ++ [frame]
      consumer := .sdFragment bytesRemaining header recordOffset (packet + 1) } := by
    simpa [Logger.step, sdFragment, here, more, ready, coded] using stepped.symm
  have next : (packet + 1).toNat = packet.toNat + 1 := by
    have small : packet.toNat < (fragmentCount limits header).toNat := more
    have bound := (fragmentCount limits header).toNat_lt
    rw [UInt8.toNat_add]
    exact Nat.mod_eq_of_lt (by simp; omega)
  refine ⟨saved, _, _, packet.toNat + 1, reading, entries, ⟨earlier, ?_, covers, exact'⟩, ?_⟩
  · rw [List.take_add_one, due, List.map_append, taken]
    simp [coded]
  · have less := (List.getElem?_eq_some_iff.mp due).1
    simp only [moved, CountStage, next]
    exact ⟨trivial, less⟩

/-- A flush that is broken off leaves frames of a record that is not saved. -/
private theorem account_refused {strict : Prop}
    (account : Account limits encode strict saved kept inserted count system)
    (pending : pendingFrame limits encode system.world = some frame)
    (stepped : Logger.step limits encode system.world (.sdFragment false) = some world)
    (card : Card names) (loose : ¬strict) :
    Accounts limits encode strict { system with world, card } := by
  obtain ⟨kept', _, reading, rfl, rfl⟩ := reading_step account.reading stepped
  obtain ⟨_, header, recordOffset, packet, here, more, ready, coded, due⟩ :=
    pendingFrame_eq_some account.reading pending
  obtain ⟨_, entries, ⟨earlier, taken, covers, _⟩, _⟩ := account
  have moved : world.consumer = .sdEnding false := by
    have same : world = { system.world with
        offered := system.world.offered ++ [frame]
        consumer := .sdEnding false } := by
      simpa [Logger.step, sdFragment, here, more, ready, coded] using stepped.symm
    rw [same]
  refine ⟨saved, _, _, 0, reading, entries,
    ⟨earlier ++ ((headFragments limits kept').take count).map encode, ?_,
      covers.trans (List.sublist_append_left _ _), fun whole => absurd whole loose⟩, ?_⟩
  · rw [taken, List.take_zero, List.map_nil, List.append_nil]
  · simp only [moved, CountStage]

/-- Past the last fragment the record is released. -/
private theorem account_fragmentsDone {strict : Prop}
    (encodes : Encodes limits encode)
    (account : Account limits encode strict saved kept inserted count system)
    (pending : pendingFrame limits encode system.world = none)
    (stepped : Logger.step limits encode system.world (.sdFragment false) = some world) :
    Accounts limits encode strict { system with world } := by
  obtain ⟨_, _, reading, rfl, rfl⟩ := reading_step account.reading stepped
  cases here : system.world.consumer with
  | sdFragment bytesRemaining header recordOffset packet =>
    have done := pendingFrame_eq_none encodes account.reading here pending
    have moved : world = { system.world with consumer := .sdRelease bytesRemaining header } := by
      simpa [Logger.step, sdFragment, here, done] using stepped.symm
    have readStage := account.reading.stage
    obtain ⟨_, entries, frames, stage⟩ := account
    rw [here] at readStage
    obtain ⟨record, rest, rfl, _, rfl, _⟩ := readStage
    simp only [here, CountStage, headFragments, length_fragments] at stage
    have past : (fragmentCount limits record.header).toNat ≤ packet.toNat := Nat.le_of_not_lt done
    refine ⟨saved, _, _, count, reading, entries, frames, ?_⟩
    simp only [moved, CountStage, headFragments, length_fragments]
    omega
  | _ => simp [Logger.step, sdFragment, here] at stepped

private theorem accounts_boot (card : Card names) (strict : Prop) :
    Accounts limits encode strict (System.boot card) :=
  ⟨[], [], [], 0, reading_initial, rfl, ⟨[], rfl, List.Sublist.refl _, fun _ => rfl⟩, rfl⟩

variable [DecidableEq Key]

/-- One step keeps the account; while the card does what it is asked, strictly. -/
theorem accounts_step {strict : Prop}
    (encodes : Encodes limits encode) (accounts : Accounts limits encode strict system)
    (healthy : strict → Healthy limits encode system event)
    (powered : ∀ kept, event ≠ .powerLoss kept)
    (stepped : step mountPoint limits encode system event = some next) :
    Accounts limits encode strict next := by
  have whole := accounts
  obtain ⟨saved, kept, inserted, count, account⟩ := accounts
  cases event with
  | logger event =>
    simp only [step] at stepped
    split at stepped
    · cases stepped
    rename_i foreign
    obtain ⟨world, moved, rfl⟩ := Option.map_eq_some_iff.mp stepped
    exact account_logger account (by simpa using foreign) moved
  | openFlush append time position answer =>
    rcases openFlush_cases stepped with same | ⟨_, _, _, _, _, same⟩ <;> rw [← same]
    · exact accounts_congr whole rfl rfl rfl
    · exact accounts_congr whole rfl rfl rfl
  | beginFlush =>
    simp only [step, beginFlush] at stepped
    split at stepped
    · split at stepped <;> cases stepped
      · rename_i free
        have began : Logger.step limits encode system.world .flushLogsTo =
            some (beginConsumer system.world .sdSnapshot) := rfl
        obtain ⟨_, _, reading, rfl, rfl⟩ := reading_step account.reading began
        obtain ⟨_, entries, frames, stage⟩ := account
        simp only [free, CountStage] at stage
        subst stage
        refine ⟨saved, _, _, 0, reading, entries, frames, ?_⟩
        simp only [beginConsumer, if_pos free, CountStage]
      · exact accounts_congr whole rfl rfl rfl
    · cases stepped
  | fragment accepted =>
    simp only [step, flushFragment] at stepped
    split at stepped
    · rename_i path base written _ opened
      split at stepped
      · rename_i pending
        obtain ⟨world, moved, rfl⟩ := Option.map_eq_some_iff.mp stepped
        exact account_fragmentsDone encodes account pending moved
      · rename_i frame pending
        obtain ⟨world, moved, rfl⟩ := Option.map_eq_some_iff.mp stepped
        by_cases took : frame.length ≤ accepted
        · simp only [Card.writeStream, opened, took, decide_true, if_true] at moved ⊢
          exact account_stored account pending moved path _
        · simp only [Card.writeStream, opened, took, decide_false, Bool.false_eq_true,
            if_false] at moved ⊢
          exact account_refused account pending moved _ fun strictly =>
            took (healthy strictly frame pending)
    · cases stepped
  | endFlush =>
    simp only [step, endFlush] at stepped
    split at stepped <;> cases stepped
    rename_i here
    obtain ⟨⟨retains, configured, _⟩, entries, frames, stage⟩ := account
    simp only [here, CountStage] at stage
    subst stage
    exact ⟨saved, kept, inserted, 0, ⟨retains, configured, trivial⟩, entries, frames, rfl⟩
  | closeFlush closed kept =>
    simp only [step, closeFlush] at stepped
    split at stepped <;> cases stepped
    exact accounts_congr whole rfl rfl rfl
  | deleteLog index answer =>
    simp only [step, deleteLog] at stepped
    split at stepped
    · cases stepped
      exact whole
    · split at stepped <;> cases stepped
      exact accounts_congr whole rfl rfl rfl
  | renameLog index newName position answer =>
    simp only [step, renameLog] at stepped
    split at stepped
    · cases stepped
      exact whole
    · split at stepped <;> cases stepped
      exact accounts_congr whole rfl rfl rfl
  | writeFile other data position opened kept =>
    simp only [step] at stepped
    split at stepped <;> cases stepped
    exact accounts_congr whole rfl rfl rfl
  | mount mounted =>
    simp only [step] at stepped
    split at stepped <;> cases stepped
    exact accounts_congr whole rfl rfl rfl
  | hostWrites volume =>
    simp only [step] at stepped
    split at stepped <;> cases stepped
    exact accounts_congr whole rfl rfl rfl
  | powerLoss kept => exact absurd rfl (powered kept)

/-- While the power stays on, whatever the card refuses or loses, every record
the ring took in is saved or still retained, once and in order, and the frames
of the saved ones are among those the card took, in order. While the card does
what it is asked, it took exactly these and the first frames of the record that
is being saved. -/
theorem every_record_is_saved_or_retained (card : Card names) (encodes : Encodes limits encode)
    (powered : ∀ event ∈ events, ∀ kept, event ≠ .powerLoss kept)
    (ran : run (step mountPoint limits encode) (System.boot card) events = some system) :
    ∃ saved kept inserted count,
      system.accepted = saved ++ kept ++ inserted ∧
      retained limits system.world.ring = some (kept ++ inserted) ∧
      ((saved.flatMap (StoredRecord.fragments limits)).map encode).Sublist
        (system.taken.map fun frame => some frame.2) ∧
      (Along (step mountPoint limits encode) (Healthy limits encode) (System.boot card) events →
        system.taken.map (fun frame => some frame.2) =
          (saved.flatMap (StoredRecord.fragments limits) ++
            (headFragments limits kept).take count).map encode) := by
  have accounts : Accounts limits encode
      (Along (step mountPoint limits encode) (Healthy limits encode) (System.boot card) events)
      system := by
    by_cases healthy : Along (step mountPoint limits encode) (Healthy limits encode)
        (System.boot card) events
    · refine run_invariant_along (fun held met stepped => ?_) (accounts_boot card _) healthy ran
      exact accounts_step encodes held (fun _ => met)
        (fun kept loss => by simp [loss, Healthy] at met)
        stepped
    · have on : Along (step mountPoint limits encode)
          (fun _ event => ∀ kept, event ≠ .powerLoss kept)
          (System.boot card) events :=
        along_of_mem (fun event member _ => powered event member) _
      refine run_invariant_along (fun held met stepped => ?_) (accounts_boot card _) on ran
      exact accounts_step encodes held (fun whole => absurd whole healthy) met stepped
  obtain ⟨saved, kept, inserted, count, reading, entries, ⟨earlier, taken, covers, exact'⟩, _⟩ :=
    accounts
  refine ⟨saved, kept, inserted, count, entries, retained_of_retains reading.retains, ?_, ?_⟩
  · rw [taken]
    exact covers.trans (List.sublist_append_left _ _)
  · intro healthy
    rw [taken, exact' healthy, List.map_append]

theorem every_record_is_saved_or_retained_after_a_cut : ∃ system saved kept inserted,
    run (step sdMount espNowLimits plainCodec) (System.boot emptyCard)
      (flushTrace ++ cutAppendTrace.take 6) = some system ∧
    system.accepted = saved ++ kept ++ inserted ∧
    retained espNowLimits system.world.ring = some (kept ++ inserted) := by
  obtain ⟨system, ran⟩ := Option.isSome_iff_exists.mp
    (show (run (step sdMount espNowLimits plainCodec) (System.boot emptyCard)
      (flushTrace ++ cutAppendTrace.take 6)).isSome = true by decide +kernel)
  have powered :
      ∀ event ∈ flushTrace ++ cutAppendTrace.take 6, ∀ kept, event ≠ .powerLoss kept := by
    intro event member kept same
    subst same
    simp [flushTrace, cutAppendTrace] at member
  obtain ⟨saved, kept, inserted, _, accepted, left, _⟩ :=
    every_record_is_saved_or_retained emptyCard plainCodec_encodes powered ran
  exact ⟨system, saved, kept, inserted, ran, accepted, left⟩

end BallyOS.Storage
