import BallyOS.Logger.ReadSide

/-! What one SD flush does to the records retained at its snapshot. They are
stored fragment by fragment, oldest record first; a record leaves the ring only
after its last fragment was stored, and whatever the flush did not finish is
still retained, ahead of everything inserted meanwhile. -/
namespace BallyOS.Logger
open Library

variable {limits : Limits} {encode : Fragment → Option (List UInt8)}

/-- The fragments of the record that is next to be saved. -/
def headFragments (limits : Limits) : List StoredRecord → List Fragment
  | [] => []
  | record :: _ => record.fragments limits

/-- How far the flush's own variables say it has come. -/
def SaveStage (limits : Limits) (kept : List StoredRecord) (count : Nat) : Consumer → Prop
  | .sdSnapshot => False
  | .sdHeader _ => count = 0
  | .sdFragment _ _ _ packet =>
    count = packet.toNat ∧ count ≤ (headFragments limits kept).length
  | .sdRelease .. => count = (headFragments limits kept).length
  | .sdEnding true => kept = []
  | .sdEnding false => count < (headFragments limits kept).length
  | _ => True

/-- The last frame the callback saw is the next one and was refused. -/
def Refused (limits : Limits) (encode : Fragment → Option (List UInt8))
    (kept : List StoredRecord) (count : Nat) (world : World) : Prop :=
  ∃ frame, world.offered = world.stored ++ [frame] ∧
    (headFragments limits kept)[count]?.bind encode = some frame

/-- What the callback was given so far: exactly what it stored, and after a
failure one frame more. -/
def OfferStage (limits : Limits) (encode : Fragment → Option (List UInt8))
    (kept : List StoredRecord) (count : Nat) (world : World) : Prop :=
  match world.consumer with
  | .sdHeader _ | .sdFragment .. | .sdRelease .. | .sdEnding true => world.offered = world.stored
  | .sdEnding false => Refused limits encode kept count world
  | _ => world.offered = world.stored ∨ Refused limits encode kept count world

/-- The flush has released some of its snapshot, stored `count` fragments of
the next record, and keeps the rest. -/
structure Saving (limits : Limits) (encode : Fragment → Option (List UInt8))
    (snapshot released kept inserted : List StoredRecord) (count : Nat) (world : World) :
    Prop where
  order : snapshot = released ++ kept
  reading : Reading limits world kept inserted
  stored : world.stored.map some =
    (released.flatMap (StoredRecord.fragments limits) ++
      (headFragments limits kept).take count).map encode
  offered : OfferStage limits encode kept count world
  stage : SaveStage limits kept count world.consumer

/-- The codec encodes every fragment within its limits. -/
def Encodes (limits : Limits) (encode : Fragment → Option (List UInt8)) : Prop :=
  ∀ fragment : Fragment, 0 < fragment.payload.length →
    fragment.payload.length ≤ limits.maxPayloadSize →
      fragment.fragmentIndex < fragment.fragmentCount → ∃ frame, encode fragment = some frame

private theorem offered_or_refused (offered : OfferStage limits encode kept count world) :
    world.offered = world.stored ∨ Refused limits encode kept count world := by
  unfold OfferStage at offered
  split at offered
  all_goals first | exact .inl offered | exact .inr offered | exact offered

@[simp] theorem length_fragments (limits : Limits) (record : StoredRecord) :
    (record.fragments limits).length = (fragmentCount limits record.header).toNat := by
  simp [StoredRecord.fragments]

/-- A packet within the count starts inside the payload. -/
private theorem packet_starts_inside (record : StoredRecord) {packet : UInt8}
    (bounded : record.payload.length ≤ limits.maxPayloadSize * 255)
    (more : packet < fragmentCount limits record.header) :
    packet.toNat * limits.maxPayloadSize < record.payload.length := by
  have room : 0 < limits.maxPayloadSize :=
    Nat.lt_of_le_of_lt (Nat.zero_le _) limits.tag_leaves_room
  have less : packet.toNat < (fragmentCount limits record.header).toNat := more
  rw [fragmentCount_toNat limits (record.announced ▸ bounded), ← record.announced] at less
  have whole := Nat.mul_le_of_le_div _ _ _ (Nat.succ_le_of_lt less)
  rw [Nat.succ_mul] at whole
  omega

/-- The loop copies out of the ring exactly the fragment that is due, also
when the record wraps. -/
theorem ringFragment_eq (retains : Retains limits ring (record :: records))
    {packet : UInt8} (more : packet < fragmentCount limits record.header) :
    (record.fragments limits)[packet.toNat]? =
        some (ringFragment limits ring record.header ring.readOffset packet) ∧
      0 < (ringFragment limits ring record.header ring.readOffset packet).payload.length ∧
      (ringFragment limits ring record.header ring.readOffset packet).payload.length ≤
        limits.maxPayloadSize := by
  have bounded := retains.bounded record List.mem_cons_self
  have inside := packet_starts_inside record bounded more
  have less : packet.toNat < (fragmentCount limits record.header).toNat := more
  have fits : totalSize (record :: records) ≤ limits.storageCapacity :=
    retains.used ▸ retains.within
  rw [totalSize_cons] at fits
  have announced := record.announced
  have length : fragmentLength limits record.header packet.toNat =
      min (record.payload.drop (packet.toNat * limits.maxPayloadSize)).length
        limits.maxPayloadSize := by
    rw [fragmentLength, List.length_drop, announced]
  have copied : readFromRing limits ring
      ((ring.readOffset + StoredLogHeader.storedSize + packet.toNat * limits.maxPayloadSize) %
        limits.storageCapacity) (fragmentLength limits record.header packet.toNat) =
      (record.payload.drop (packet.toNat * limits.maxPayloadSize)).take
        limits.maxPayloadSize := by
    rw [read_payload _ _ (recordAt_of_view retains.stored).1 (by rw [fragmentLength]; omega)
      (by omega), length, ← List.take_take, List.take_of_length_le]
    · rw [List.length_take]
      omega
  have room : 0 < limits.maxPayloadSize :=
    Nat.lt_of_le_of_lt (Nat.zero_le _) limits.tag_leaves_room
  refine ⟨?_, ?_, ?_⟩
  · simp [StoredRecord.fragments, ringFragment, copied, less]
  · simp only [ringFragment, fragmentOf, copied, List.length_take, List.length_drop]
    omega
  · simp only [ringFragment, fragmentOf, copied, List.length_take]
    omega

/-- The record an SD stage is at, with the fragment it is about to hand over. -/
private theorem fragment_at_stage (saving : Saving limits encode snapshot released kept inserted
      count world)
    (here : world.consumer = .sdFragment bytesRemaining header recordOffset packet)
    (more : packet < fragmentCount limits header) :
    count = packet.toNat ∧ world.offered = world.stored ∧
      (headFragments limits kept)[count]? =
        some (ringFragment limits world.ring header recordOffset packet) ∧
      0 < (ringFragment limits world.ring header recordOffset packet).payload.length ∧
      (ringFragment limits world.ring header recordOffset packet).payload.length ≤
        limits.maxPayloadSize := by
  have readStage := saving.reading.stage
  have stage := saving.stage
  have offered := saving.offered
  simp only [here, OfferStage] at readStage stage offered
  obtain ⟨record, rest, rfl, _, rfl, rfl⟩ := readStage
  obtain ⟨rfl, _⟩ := stage
  exact ⟨rfl, offered, ringFragment_eq saving.reading.retains more⟩

private theorem saving_stored (saving : Saving limits encode snapshot released kept inserted
      count world)
    (here : world.consumer = .sdFragment bytesRemaining header recordOffset packet)
    (more : packet < fragmentCount limits header)
    (coded : encode (ringFragment limits world.ring header recordOffset packet) = some frame)
    (reading : Reading limits next kept inserted)
    (stored : next.stored = world.stored ++ [frame])
    (offered : next.offered = world.offered ++ [frame])
    (moved : next.consumer = .sdFragment bytesRemaining header recordOffset (packet + 1)) :
    Saving limits encode snapshot released kept inserted (count + 1) next := by
  obtain ⟨position, same, due, _⟩ := fragment_at_stage saving here more
  have less : count < (headFragments limits kept).length :=
    (List.getElem?_eq_some_iff.mp due).1
  have step : (packet + 1).toNat = packet.toNat + 1 := by
    have small : packet.toNat < (fragmentCount limits header).toNat := more
    have bound := (fragmentCount limits header).toNat_lt
    rw [UInt8.toNat_add]
    exact Nat.mod_eq_of_lt (by simp; omega)
  refine ⟨saving.order, reading, ?_, ?_, ?_⟩
  · rw [stored, List.map_append, saving.stored, List.take_add_one, due]
    simp [coded]
  · simp only [OfferStage, moved, offered, stored, same]
  · simp only [moved, SaveStage, step]
    omega

private theorem saving_refused (saving : Saving limits encode snapshot released kept inserted
      count world)
    (here : world.consumer = .sdFragment bytesRemaining header recordOffset packet)
    (more : packet < fragmentCount limits header)
    (coded : encode (ringFragment limits world.ring header recordOffset packet) = some frame)
    (reading : Reading limits next kept inserted) (stored : next.stored = world.stored)
    (offered : next.offered = world.offered ++ [frame])
    (moved : next.consumer = .sdEnding false) :
    Saving limits encode snapshot released kept inserted count next := by
  obtain ⟨_, same, due, _⟩ := fragment_at_stage saving here more
  refine ⟨saving.order, reading, stored ▸ saving.stored, ?_, ?_⟩
  · simp only [OfferStage, moved]
    exact ⟨frame, by rw [offered, stored, same], by simp [due, coded]⟩
  · simp only [moved, SaveStage]
    exact (List.getElem?_eq_some_iff.mp due).1

/-- Every fragment is handed over before the record is released. -/
private theorem saving_fragmentsDone (saving : Saving limits encode snapshot released kept
      inserted count world)
    (here : world.consumer = .sdFragment bytesRemaining header recordOffset packet)
    (done : ¬packet < fragmentCount limits header) :
    count = (headFragments limits kept).length ∧ world.offered = world.stored := by
  have readStage := saving.reading.stage
  have stage := saving.stage
  have offered := saving.offered
  simp only [here, OfferStage] at readStage stage offered
  obtain ⟨record, rest, rfl, _, rfl, _⟩ := readStage
  obtain ⟨position, within⟩ := stage
  have past : (fragmentCount limits record.header).toNat ≤ packet.toNat :=
    Nat.le_of_not_lt done
  simp only [headFragments, length_fragments] at within ⊢
  exact ⟨by omega, offered⟩

private theorem saving_released (saving : Saving limits encode snapshot released (record :: rest)
      inserted count world)
    (here : world.consumer = .sdRelease bytesRemaining header)
    (reading : Reading limits next rest inserted) (stored : next.stored = world.stored)
    (offered : next.offered = world.offered) (moved : next.consumer = .sdHeader left) :
    Saving limits encode snapshot (released ++ [record]) rest inserted 0 next := by
  have stage := saving.stage
  have same := saving.offered
  simp only [here, SaveStage, OfferStage] at stage same
  refine ⟨by simp [saving.order], reading, ?_, ?_, ?_⟩
  · rw [stored, saving.stored, stage, List.take_length]
    simp [headFragments]
  · simp only [OfferStage, moved, offered, stored, same]
  · simp only [moved, SaveStage]

/-- Within one flush every event keeps the account. -/
theorem saving_step (encodes : Encodes limits encode)
    (saving : Saving limits encode snapshot released kept inserted count world)
    (same : event ≠ .flushLogsTo) (stepped : step limits encode world event = some next) :
    ∃ released' kept' inserted' count',
      Saving limits encode snapshot released' kept' inserted' count' next := by
  obtain ⟨kept', inserted', reading, outcome⟩ := reading_step saving.reading stepped
  have either := offered_or_refused saving.offered
  have stage := saving.stage
  cases moved_of_step stepped with
  | sdBusy | sdBegan => exact absurd rfl same
  | snapshotTaken here => simp [here, SaveStage] at stage
  | ignored | inserted =>
    obtain ⟨rfl, _⟩ := outcome
    exact ⟨released, kept', inserted', count, saving.order, reading, saving.stored,
      saving.offered, stage⟩
  | configured | radioBusy =>
    obtain ⟨rfl, rfl⟩ := outcome
    exact ⟨released, kept', inserted', count, saving.order, reading, saving.stored,
      saving.offered, stage⟩
  | radioBegan | radioStopped | radioRefused | radioSent | radioAdvanced | radioLost | ended =>
    obtain ⟨rfl, rfl⟩ := outcome
    exact ⟨released, kept', inserted', count, saving.order, reading, saving.stored, either,
      trivial⟩
  | sdDone here =>
    obtain ⟨rfl, rfl⟩ := outcome
    have empty := saving.reading.stage
    have offered := saving.offered
    simp only [here, ReadStage, OfferStage] at empty offered
    exact ⟨released, kept', inserted', count, saving.order, reading, saving.stored, offered,
      totalSize_eq_zero empty.symm⟩
  | headerMissing here missing =>
    obtain ⟨_, _, _, found⟩ := reading_headerRead saving.reading here
    cases missing.symm.trans found
  | headerRead here =>
    obtain ⟨rfl, rfl⟩ := outcome
    have offered := saving.offered
    simp only [here, SaveStage, OfferStage] at stage offered
    subst stage
    exact ⟨released, kept', inserted', 0, saving.order, reading, saving.stored, offered, rfl,
      Nat.zero_le _⟩
  | fragmentMissing here more missing =>
    obtain ⟨_, _, _, nonempty, small⟩ := fragment_at_stage saving here more
    obtain ⟨frame, coded⟩ := encodes _ nonempty small more
    have readStage := saving.reading.stage
    rw [here] at readStage
    obtain ⟨record, rest, rfl, _⟩ := readStage
    rcases missing with unset | uncoded
    · simp [saving.reading.configured (by simp)] at unset
    · cases uncoded.symm.trans coded
  | fragmentStored here more coded =>
    obtain ⟨rfl, rfl⟩ := outcome
    exact ⟨released, kept', inserted', count + 1,
      saving_stored saving here more coded reading rfl rfl rfl⟩
  | fragmentRefused here more coded =>
    obtain ⟨rfl, rfl⟩ := outcome
    exact ⟨released, kept', inserted', count,
      saving_refused saving here more coded reading rfl rfl rfl⟩
  | fragmentsDone here done =>
    obtain ⟨rfl, rfl⟩ := outcome
    obtain ⟨whole, offered⟩ := saving_fragmentsDone saving here done
    exact ⟨released, kept', inserted', count, saving.order, reading, saving.stored, offered,
      whole⟩
  | released here =>
    obtain ⟨record, rfl, rfl⟩ := outcome
    exact ⟨released ++ [record], kept', inserted', 0,
      saving_released saving here reading rfl rfl rfl⟩

/-- The stages in which the flush itself has the next move. -/
def InFlush : Consumer → Prop
  | .sdHeader _ | .sdFragment .. | .sdRelease .. => True
  | _ => False

/-- What the flush has left to do; a record weighs more than its fragments. -/
def flushWork (limits : Limits) : Consumer → Nat
  | .sdHeader bytesRemaining => 300 * bytesRemaining + 1
  | .sdFragment bytesRemaining header _ packet => 300 * (bytesRemaining - header.recordSize) + 3 +
      ((fragmentCount limits header).toNat - packet.toNat)
  | .sdRelease bytesRemaining header => 300 * (bytesRemaining - header.recordSize) + 2
  | _ => 0

/-- The callback decides what is stored, from all it may have seen. -/
def Answers (callback : World → Bool) (world : World) : Event → Prop
  | .sdFragment stored => stored = callback world
  | _ => True

private theorem fragment_progress (encodes : Encodes limits encode) (callback : World → Bool)
    (saving : Saving limits encode snapshot released kept inserted count world)
    (here : world.consumer = .sdFragment bytesRemaining header recordOffset packet) :
    ∃ next, step limits encode world (.sdFragment (callback world)) = some next ∧
      (InFlush next.consumer ∧ flushWork limits next.consumer < flushWork limits world.consumer ∨
        callback world = false ∧ next.consumer = .sdEnding false) := by
  have readStage := saving.reading.stage
  rw [here] at readStage
  obtain ⟨record, rest, rfl, _⟩ := readStage
  have ready := saving.reading.configured (by simp)
  by_cases more : packet < fragmentCount limits header
  · obtain ⟨_, _, _, nonempty, small⟩ := fragment_at_stage saving here more
    obtain ⟨frame, coded⟩ := encodes _ nonempty small more
    have less : packet.toNat < (fragmentCount limits header).toNat := more
    have bound := (fragmentCount limits header).toNat_lt
    have next : (packet + 1).toNat = packet.toNat + 1 := by
      rw [UInt8.toNat_add]
      exact Nat.mod_eq_of_lt (by simp; omega)
    cases answer : callback world with
    | true =>
      have stepped : step limits encode world (.sdFragment true) = some { world with
          offered := world.offered ++ [frame]
          stored := world.stored ++ [frame]
          consumer := .sdFragment bytesRemaining header recordOffset (packet + 1) } := by
        simp [step, sdFragment, here, more, ready, coded]
      refine ⟨_, stepped, .inl ⟨trivial, ?_⟩⟩
      simp only [here, flushWork, next]
      omega
    | false =>
      have stepped : step limits encode world (.sdFragment false) = some { world with
          offered := world.offered ++ [frame]
          consumer := .sdEnding false } := by
        simp [step, sdFragment, here, more, ready, coded]
      exact ⟨_, stepped, .inr ⟨rfl, rfl⟩⟩
  · have stepped : step limits encode world (.sdFragment (callback world)) =
        some { world with consumer := .sdRelease bytesRemaining header } := by
      simp [step, sdFragment, here, more]
    refine ⟨_, stepped, .inl ⟨trivial, ?_⟩⟩
    simp only [here, flushWork]
    omega

/-- The flush always has a next move, and it brings it nearer its end. -/
private theorem flush_progress (encodes : Encodes limits encode) (callback : World → Bool)
    (saving : Saving limits encode snapshot released kept inserted count world)
    (inFlush : InFlush world.consumer) :
    ∃ event next, event ≠ .flushLogsTo ∧ Answers callback world event ∧
      step limits encode world event = some next ∧
      (InFlush next.consumer ∧ flushWork limits next.consumer < flushWork limits world.consumer ∨
        ∃ success, next.consumer = .sdEnding success ∧
          (success = true ∨ callback world = false)) := by
  have readStage := saving.reading.stage
  cases here : world.consumer with
  | none | radioChunk | radioAdvance | sdSnapshot | radioEnding | sdEnding =>
    simp [here, InFlush] at inFlush
  | sdHeader bytesRemaining =>
    cases bytesRemaining with
    | zero =>
      have stepped : step limits encode world .sdHeader =
          some { world with consumer := .sdEnding true } := by
        simp [step, sdHeader, here]
      exact ⟨.sdHeader, _, by simp, trivial, stepped, .inr ⟨true, rfl, .inl rfl⟩⟩
    | succ less =>
      obtain ⟨record, rest, rfl, found⟩ := reading_headerRead saving.reading here
      simp only [here, ReadStage, totalSize_cons] at readStage
      have size := record.size_pos
      have bound := (fragmentCount limits record.header).toNat_lt
      have stepped : step limits encode world .sdHeader = some { world with
          consumer := .sdFragment (less + 1) record.header world.ring.readOffset 0 } := by
        simp [step, sdHeader, here, found]
      refine ⟨.sdHeader, _, by simp, trivial, stepped, .inl ⟨trivial, ?_⟩⟩
      simp only [flushWork, StoredRecord.recordSize_header, StoredLogHeader.storedSize] at size ⊢
      omega
  | sdFragment bytesRemaining header recordOffset packet =>
    obtain ⟨next, stepped, progress⟩ := fragment_progress encodes callback saving here
    refine ⟨.sdFragment (callback world), next, by simp, rfl, stepped, ?_⟩
    rcases progress with further | ⟨refused, ended⟩
    · exact .inl (here ▸ further)
    · exact .inr ⟨false, ended, .inr refused⟩
  | sdRelease bytesRemaining header =>
    simp only [here, ReadStage] at readStage
    obtain ⟨record, rest, rfl, rfl, rfl⟩ := readStage
    have within := saving.reading.retains.within
    have capacity := limits.capacity_fits
    rw [saving.reading.retains.used, List.cons_append, totalSize_cons, totalSize_append] at within
    have stepped : step limits encode world .sdRelease = some { world with
        ring := releaseOldest limits record.header world.ring
        consumer := .sdHeader (sub32 (totalSize (record :: rest)) record.header.recordSize) } := by
      simp [step, sdRelease, here]
    refine ⟨.sdRelease, _, by simp, trivial, stepped, .inl ⟨trivial, ?_⟩⟩
    simp only [flushWork, StoredRecord.recordSize_header, totalSize_cons]
    rw [sub32_eq (by omega) (by omega)]
    omega

/-- Left to itself the flush ends, whatever the callback answers, and it ends
in success unless the callback refused a frame. -/
theorem flush_ends (encodes : Encodes limits encode) (callback : World → Bool)
    (saving : Saving limits encode snapshot released kept inserted count world)
    (inFlush : InFlush world.consumer) :
    ∃ events last success, .flushLogsTo ∉ events ∧
      Along (step limits encode) (Answers callback) world events ∧
      run (step limits encode) world events = some last ∧ last.consumer = .sdEnding success ∧
      (success = true ∨ ∃ asked, callback asked = false) := by
  induction work : flushWork limits world.consumer using Nat.strongRecOn
    generalizing world released kept inserted count with
  | ind size ih =>
    obtain ⟨event, next, same, answered, stepped, progress⟩ :=
      flush_progress encodes callback saving inFlush
    rcases progress with ⟨further, less⟩ | ⟨success, ended, why⟩
    · obtain ⟨released', kept', inserted', count', after⟩ :=
        saving_step encodes saving same stepped
      obtain ⟨events, last, success, none, met, ran, ended, why⟩ :=
        ih _ (work ▸ less) after further rfl
      refine ⟨event :: events, last, success, ?_, along_of_step answered stepped met,
        run_cons.mpr ⟨next, stepped, ran⟩, ended, why⟩
      simp only [List.mem_cons, not_or]
      exact ⟨Ne.symm same, none⟩
    · refine ⟨[event], next, success, ?_, along_of_step answered stepped trivial,
        run_cons.mpr ⟨next, stepped, rfl⟩, ended, ?_⟩
      · simpa using Ne.symm same
      · exact why.imp_right fun refused => ⟨world, refused⟩

/-- The account a flush can be held to: what it has released and keeps of its
snapshot, what the callback was given and stored, and how it ended. -/
structure FlushAccount (limits : Limits) (encode : Fragment → Option (List UInt8))
    (snapshot released kept inserted : List StoredRecord) (count : Nat) (world : World) :
    Prop where
  order : snapshot = released ++ kept
  retains : retained limits world.ring = some (kept ++ inserted)
  stored : world.stored.map some =
    (released.flatMap (StoredRecord.fragments limits) ++
      (headFragments limits kept).take count).map encode
  offered : world.offered = world.stored ∨ Refused limits encode kept count world
  whenDone : world.consumer = .sdEnding true → kept = []
  whenFailed : world.consumer = .sdEnding false →
    count < (headFragments limits kept).length ∧ Refused limits encode kept count world

private theorem account_of_saving
    (saving : Saving limits encode snapshot released kept inserted count world) :
    FlushAccount limits encode snapshot released kept inserted count world := by
  have stage := saving.stage
  have offered := saving.offered
  refine ⟨saving.order, retained_of_retains saving.reading.retains, saving.stored,
    offered_or_refused offered, ?_, ?_⟩
  · intro done
    simpa only [done, SaveStage] using stage
  · intro failed
    simp only [failed, SaveStage, OfferStage] at stage offered
    exact ⟨stage, offered⟩

def Saves (limits : Limits) (encode : Fragment → Option (List UInt8))
    (snapshot : List StoredRecord) (world : World) : Prop :=
  ∃ released kept inserted count,
    Saving limits encode snapshot released kept inserted count world

private theorem saves_snapshot (reading : Reading limits start kept inserted)
    (begun : start.consumer = .sdSnapshot)
    (stepped : step limits encode start .sdSnapshot = some next) :
    Saves limits encode (kept ++ inserted) next := by
  obtain ⟨kept', inserted', after, rfl, rfl⟩ := reading_step reading stepped
  simp only [step, sdSnapshot, begun, Option.some.injEq] at stepped
  subst stepped
  exact ⟨[], kept ++ inserted, [], 0, rfl, after, rfl, rfl, rfl⟩

private theorem saves_run (encodes : Encodes limits encode)
    (saves : Saves limits encode snapshot world) (once : .flushLogsTo ∉ events)
    (ran : run (step limits encode) world events = some last) :
    Saves limits encode snapshot last := by
  have others : ∀ event ∈ events, ∀ _ : World, event ≠ .flushLogsTo :=
    fun event member _ same => once (same ▸ member)
  refine run_invariant_along (fun held same stepped => ?_) saves (along_of_mem others world) ran
  obtain ⟨_, _, _, _, saving⟩ := held
  exact saving_step encodes saving same stepped

/-- One SD flush from any reachable ring, against any callback, with inserts
and the radio's cursor anywhere in between. It stores the fragments of its
snapshot in order and whole, releases a record only when all of them are
stored, keeps the rest with its bytes ahead of what was inserted, and comes to
its end; a full ring refuses a record rather than give one up. -/
theorem sd_flush_saves_in_order (before during : List Event) (encodes : Encodes limits encode)
    (reached : run (step limits encode) World.initial before = some start)
    (begun : start.consumer = .sdSnapshot)
    (ran : run (step limits encode) start (.sdSnapshot :: during) = some world)
    (once : .flushLogsTo ∉ during) :
    ∃ snapshot, retained limits start.ring = some snapshot ∧
      (∀ record ∈ snapshot,
        ((record.fragments limits).map Fragment.payload).flatten = record.payload) ∧
      (∃ released kept inserted count,
        FlushAccount limits encode snapshot released kept inserted count world) ∧
      (InFlush world.consumer → ∀ callback : World → Bool, ∃ events last success,
        .flushLogsTo ∉ events ∧ Along (step limits encode) (Answers callback) world events ∧
          run (step limits encode) world events = some last ∧
          last.consumer = .sdEnding success ∧
          (success = true ∨ ∃ asked, callback asked = false)) ∧
      (∀ data type timestampUs reserved,
        limits.storageCapacity - world.ring.usedBytes <
          StoredLogHeader.storedSize + min data.length (limits.maxPayloadSize * 255) →
        insertLogImpl limits world.ring data type timestampUs reserved = world.ring) := by
  obtain ⟨kept, inserted, reading⟩ := readable_of_run reached
  obtain ⟨next, stepped, after⟩ := run_cons.mp ran
  obtain ⟨released', kept', inserted', count, saving⟩ :=
    saves_run encodes (saves_snapshot reading begun stepped) once after
  refine ⟨kept ++ inserted, retained_of_retains reading.retains, ?_,
    ⟨released', kept', inserted', count, account_of_saving saving⟩, ?_, ?_⟩
  · exact fun record member => fragments_payload limits (reading.retains.bounded record member)
  · exact fun inFlush callback => flush_ends encodes callback saving inFlush
  · exact fun _ _ _ _ full => full_ring_refuses full

theorem plainCodec_encodes : Encodes espNowLimits plainCodec :=
  fun _ _ small _ => ⟨_, if_pos small⟩

/-- Two records wait for the SD card. -/
def beforeFlushTrace : List Event :=
  [.configureBtp true, .insertLog [65] .info 10 (some 1), .insertLog [66, 67] .warn 20 (some 2),
    .flushLogsTo]

/-- The first is stored, a third is inserted, and the second is refused. -/
def failedFlushTrace : List Event :=
  [.sdHeader, .sdFragment true, .insertLog [68] .erro 30 (some 3), .sdFragment true, .sdRelease,
    .sdHeader, .sdFragment false]

theorem failed_flush_keeps_refused_record : ∃ start world,
    run (step espNowLimits plainCodec) World.initial beforeFlushTrace = some start ∧
      run (step espNowLimits plainCodec) start (.sdSnapshot :: failedFlushTrace) = some world ∧
      world.stored = [[1, 0, 1, 65]] ∧ world.offered = [[1, 0, 1, 65], [2, 0, 1, 66, 67]] ∧
      ∃ snapshot released kept inserted count, retained espNowLimits start.ring = some snapshot ∧
        FlushAccount espNowLimits plainCodec snapshot released kept inserted count world := by
  obtain ⟨snapshot, found, _, ⟨released, kept, inserted, count, account⟩, _⟩ :=
    sd_flush_saves_in_order beforeFlushTrace failedFlushTrace plainCodec_encodes rfl rfl rfl
      (by decide)
  exact ⟨_, _, rfl, rfl, rfl, rfl, snapshot, released, kept, inserted, count, found, account⟩

end BallyOS.Logger
