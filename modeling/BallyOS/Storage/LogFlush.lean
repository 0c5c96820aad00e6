import BallyOS.Logger.ReadSide
import BallyOS.Storage.LogNames

/-! `Logger::flush_to_sd` over the logger's ring and the card: a file is chosen
and opened, the ring's flush hands over frame after frame, and the file is
closed. Other tasks log and send in between, the shell deletes and renames
files, the USB host takes the card over, and the power goes at any time.

The driver leaves removing, renaming or rewriting the very file that is being
written undefined; those events are not taken. -/
namespace BallyOS.Storage
open Library Logger

/-- Where `flush_to_sd` stands. -/
inductive Phase
  | opened
  | running
  | finished (stored : Bool)
deriving DecidableEq

/-- The local variables of `flush_to_sd`. -/
structure Flush where
  filename : Path
  append : Bool
  phase : Phase
deriving DecidableEq

/-- The logger, the card and the flush under way. Two lists are kept for an
onlooker: the records the ring took in since boot, and the frames `write_stream`
took whole, each with its file. -/
structure System {Key : Type} (names : Path → Key) where
  world : World
  card : Card names
  logCounter : UInt32
  lastLogFile : Path
  flush : Option Flush
  accepted : List StoredRecord
  taken : List (Path × List UInt8)

inductive Event {Key : Type} (names : Path → Key)
  | logger (event : Logger.Event)
  | openFlush (append : Bool) (time : LocalTime) (position : Nat) (opened : Bool)
  | beginFlush
  | fragment (accepted : Nat)
  | endFlush
  | closeFlush (closed : Bool) (kept : Nat)
  | deleteLog (index : UInt16) (answer : Bool)
  | renameLog (index : UInt16) (newName : Path) (position : Nat) (answer : Bool)
  | writeFile (path : Path) (data : List UInt8) (position : Nat) (opened : Bool)
      (kept : Option Nat)
  | mount (mounted : Bool)
  | hostWrites (volume : Volume (List UInt8) names)
  | powerLoss (kept : Nat)

variable {Key : Type} [DecidableEq Key] {names : Path → Key}

/-- A robot switched on with a card in it. -/
def System.boot (card : Card names) : System names where
  world := World.initial
  card := { card with stream := none }
  logCounter := 0
  lastLogFile := []
  flush := none
  accepted := []
  taken := []

/-- A path of the file that is being written. -/
def Card.isOpen (card : Card names) (path : Path) : Bool :=
  match card.stream with
  | some (.writing target _ _) => names path = names target
  | _ => false

/-- The events of the ring's flush that belong to `flush_to_sd`. -/
def ownedByFlush (world : World) : Logger.Event → Bool
  | .flushLogsTo | .sdFragment _ => true
  | .endConsumer => world.consumer ≠ .radioEnding
  | _ => false

variable (mountPoint : Path) (limits : Limits) (encode : Fragment → Option (List UInt8))

/-- The record a call of `insert_log` adds to the ring, if it does. -/
def acceptedRecord (world : World) : Logger.Event → Option StoredRecord
  | .insertLog data type timestampUs (some sequence) =>
    if nonempty : data = [] then none
    else
      let record := storedRecord limits data nonempty type timestampUs sequence
      if world.endpoint ∧ record.size ≤ limits.storageCapacity - world.ring.usedBytes then
        some record
      else none
  | _ => none

/-- The file a flush is to write to, and the counter this leaves. The search
for a new name is given one try more than there are files. -/
def chooseFile (system : System names) (append : Bool) (time : LocalTime) :
    Option (Option Path × UInt32) :=
  if append then
    if system.lastLogFile ≠ [] ∧ system.card.fileExists mountPoint system.lastLogFile then
      some (some system.lastLogFile, system.logCounter)
    else some (findLatestLogFile mountPoint system.card kLogFilenameCapacity, system.logCounter)
  else makeLogFilename mountPoint system.card time kLogFilenameCapacity
    (system.card.volume.files.length + 1) system.logCounter

/-- `flush_to_sd` up to the open stream. -/
def openFlush (system : System names) (append : Bool) (time : LocalTime) (position : Nat)
    (opened : Bool) : Option (System names) :=
  if !system.card.mounted then some system
  else (chooseFile mountPoint system append time).map fun (chosen, counter) =>
    match chosen with
    | none => { system with logCounter := counter }
    | some filename =>
      match system.card.openWriteStream mountPoint filename append position opened with
      | (false, card) => { system with logCounter := counter, card }
      | (true, card) =>
        { system with logCounter := counter, card, flush := some ⟨filename, append, .opened⟩ }

/-- `begin_consumer` inside `flush_logs_to`; a busy ring ends the flush. -/
def beginFlush (system : System names) : Option (System names) :=
  match system.flush with
  | some ⟨filename, append, .opened⟩ =>
    if system.world.consumer = .none then
      some { system with
        world := beginConsumer system.world .sdSnapshot
        flush := some ⟨filename, append, .running⟩ }
    else some { system with flush := some ⟨filename, append, .finished false⟩ }
  | _ => none

/-- The frame the ring's flush is about to hand over. -/
def pendingFrame (world : World) : Option (List UInt8) :=
  match world.consumer with
  | .sdFragment _ header recordOffset packet =>
    if packet < fragmentCount limits header ∧ world.endpoint then
      encode (ringFragment limits world.ring header recordOffset packet)
    else none
  | _ => none

/-- One turn of the fragment loop, with `write_stream` as its callback. -/
def flushFragment (system : System names) (accepted : Nat) : Option (System names) :=
  match system.flush, system.card.stream with
  | some ⟨_, _, .running⟩, some (.writing path _ _) =>
    match pendingFrame limits encode system.world with
    | none => (Logger.step limits encode system.world (.sdFragment false)).map fun world =>
        { system with world }
    | some frame =>
      let (stored, card) := system.card.writeStream frame accepted
      (Logger.step limits encode system.world (.sdFragment stored)).map fun world =>
        { system with
          world
          card
          taken := if stored then system.taken ++ [(path, frame)] else system.taken }
  | _, _ => none

/-- `end_consumer`, and what `flush_logs_to` returns. -/
def endFlush (system : System names) : Option (System names) :=
  match system.flush, system.world.consumer with
  | some ⟨filename, append, .running⟩, .sdEnding success =>
    some { system with
      world := { system.world with consumer := .none }
      flush := some ⟨filename, append, .finished success⟩ }
  | _, _ => none

/-- The rest of `flush_to_sd`: the file is closed and remembered. -/
def closeFlush (system : System names) (closed : Bool) (kept : Nat) : Option (System names) :=
  match system.flush with
  | some ⟨filename, append, .finished _⟩ =>
    some { system with
      card := (system.card.closeStream closed kept).2
      lastLogFile := if !append || system.lastLogFile = [] then filename else system.lastLogFile
      flush := none }
  | _ => none

def deleteLog (system : System names) (index : UInt16) (answer : Bool) : Option (System names) :=
  match system.card.getFileInfo mountPoint index with
  | none => some system
  | some info =>
    if (system.card.makePath mountPoint info.name).any system.card.isOpen then none
    else some { system with card := (system.card.removeFile mountPoint info.name answer).2 }

def renameLog (system : System names) (index : UInt16) (newName : Path) (position : Nat)
    (answer : Bool) : Option (System names) :=
  match system.card.getFileInfo mountPoint index with
  | none => some system
  | some info =>
    if (system.card.makePath mountPoint info.name).any system.card.isOpen then none
    else some { system with
      card := (system.card.renameFile mountPoint info.name newName position answer).2 }

def step : Machine (System names) (Event names) := fun system event =>
  match event with
  | .logger event =>
    if ownedByFlush system.world event then none
    else (Logger.step limits encode system.world event).map fun world =>
      { system with
        world
        accepted := system.accepted ++ (acceptedRecord limits system.world event).toList }
  | .openFlush append time position opened =>
    openFlush mountPoint system append time position opened
  | .beginFlush => beginFlush system
  | .fragment accepted => flushFragment limits encode system accepted
  | .endFlush => endFlush system
  | .closeFlush closed kept => closeFlush system closed kept
  | .deleteLog index answer => deleteLog mountPoint system index answer
  | .renameLog index newName position answer =>
    renameLog mountPoint system index newName position answer
  | .writeFile path data position opened kept =>
    if (system.card.makePath mountPoint path).any system.card.isOpen then none
    else some { system with
      card := (system.card.writeFile mountPoint path data position opened kept).2 }
  | .mount mounted =>
    if system.card.stream.isSome then none
    else some { system with card := { system.card with mounted } }
  | .hostWrites volume =>
    if system.card.mounted || system.card.stream.isSome then none
    else some { system with card := { system.card with volume } }
  | .powerLoss kept =>
    some { System.boot (system.card.closeStream false kept).2 with taken := system.taken }

/-! ### What a step does to the card -/

variable {mountPoint limits encode} {system next : System names} {path : Path}

/-- The event is no order to delete, rename or overwrite the file a path means. -/
def Spares (mountPoint path : Path) (system : System names) : Event names → Prop
  | .deleteLog index _ | .renameLog index _ _ _ =>
    ∀ info, system.card.getFileInfo mountPoint index = some info →
      ∀ full, system.card.makePath mountPoint info.name = some full → names full ≠ names path
  | .writeFile other _ _ _ _ =>
    ∀ full, system.card.makePath mountPoint other = some full → names full ≠ names path
  | .hostWrites volume => volume.read path = system.card.volume.read path
  | _ => True

/-- A new log file did not exist before. -/
theorem chooseFile_fresh (chosen : chooseFile mountPoint system false time =
    some (some filename, counter)) : system.card.fileExists mountPoint filename = false := by
  rw [chooseFile, if_neg (by simp)] at chosen
  exact (makeLogFilename_spec chosen).2

/-- What opening does: nothing to the card, or one stream whose file keeps what
it held or was not there. -/
theorem openFlush_cases (opened : openFlush mountPoint system append time position answer =
      some next) :
    { system with logCounter := next.logCounter } = next ∨
      system.card.stream = none ∧ ∃ filename full base,
        (base = (system.card.volume.read full).getD [] ∧
          (append = false → system.card.volume.read full = none)) ∧
        { system with
          logCounter := next.logCounter
          card := { system.card with
            volume := system.card.volume.write full base position
            stream := some (.writing full base []) }
          flush := some ⟨filename, append, .opened⟩ } = next := by
  unfold openFlush at opened
  split at opened
  · cases opened
    exact .inl rfl
  obtain ⟨⟨chosen, counter⟩, choice, rfl⟩ := Option.map_eq_some_iff.mp opened
  cases chosen with
  | none => exact .inl rfl
  | some filename =>
    dsimp only
    rcases system.card.openWriteStream_cases mountPoint filename append position answer
      with refused | ⟨free, full, made, base, based, accepted⟩
    · rw [refused]
      exact .inl rfl
    · rw [accepted]
      refine .inr ⟨free, filename, full, base, ?_, rfl⟩
      cases append with
      | true => exact ⟨based, fun fresh => absurd fresh (by decide)⟩
      | false =>
        have fresh := chooseFile_fresh choice
        simp only [Card.fileExists, made, Option.isSome_eq_false_iff, Option.isNone_iff_eq_none]
          at fresh
        exact ⟨by rw [based, fresh]; rfl, fun _ => fresh⟩

omit [DecidableEq Key] in
private theorem writeStream_volume (card : Card names) (data : List UInt8) (accepted : Nat) :
    (card.writeStream data accepted).2.volume = card.volume ∧
      (card.writeStream data accepted).2.mounted = card.mounted := by
  unfold Card.writeStream
  split <;> exact ⟨rfl, rfl⟩

omit [DecidableEq Key] in
/-- A turn of the fragment loop leaves the files as they are. -/
theorem flushFragment_volume (stepped : flushFragment limits encode system accepted = some next) :
    next.card.volume = system.card.volume := by
  unfold flushFragment at stepped
  split at stepped
  · split at stepped
    · obtain ⟨world, _, rfl⟩ := Option.map_eq_some_iff.mp stepped
      rfl
    · obtain ⟨world, _, rfl⟩ := Option.map_eq_some_iff.mp stepped
      exact (writeStream_volume _ _ _).1
  · cases stepped

private theorem fragment_keeps (held : system.card.Held)
    (stepped : flushFragment limits encode system accepted = some next) :
    next.card.Held ∧ (spares → Card.KeepsFile path system.card next.card) := by
  have same := flushFragment_volume stepped
  refine ⟨?_, fun _ => Card.keepsFile_of_eq (by rw [same])⟩
  intro target base written writing
  rw [same]
  simp only [flushFragment] at stepped
  split at stepped
  · rename_i before _ _ opened
    split at stepped
    · obtain ⟨world, _, rfl⟩ := Option.map_eq_some_iff.mp stepped
      exact held target base written writing
    · obtain ⟨world, _, rfl⟩ := Option.map_eq_some_iff.mp stepped
      simp only [Card.writeStream, opened] at writing
      cases writing
      exact held _ _ _ opened
  · cases stepped

/-- A file that is not open is not the one being written. -/
theorem apart_of_closed {card : Card names} {meant : Option Path}
    (closed : meant.any card.isOpen = false)
    (writing : card.stream = some (.writing path base written)) :
    ∀ full, meant = some full → names full ≠ names path := by
  intro full here same
  simp [here, Card.isOpen, writing, same] at closed

private theorem changesOnly_held {card after : Card names} {meant : Option Path}
    (only : Card.ChangesOnly meant card after) (closed : meant.any card.isOpen = false)
    (held : card.Held) : after.Held := by
  intro path base written writing
  rw [only.stream] at writing
  rw [only.others path (apart_of_closed closed writing)]
  exact held path base written writing

variable (path) in
/-- Every step keeps the open file as it was opened, and every file it is not
told to give up. -/
theorem step_keeps (held : system.card.Held)
    (stepped : step mountPoint limits encode system event = some next) :
    next.card.Held ∧
      (Spares mountPoint path system event → Card.KeepsFile path system.card next.card) := by
  cases event with
  | logger event =>
    simp only [step] at stepped
    split at stepped
    · cases stepped
    obtain ⟨world, _, rfl⟩ := Option.map_eq_some_iff.mp stepped
    exact ⟨held, fun _ => Card.keepsFile_of_eq rfl⟩
  | openFlush append time position answer =>
    rcases openFlush_cases stepped with same | ⟨_, _, full, base, ⟨based, _⟩, opened⟩
    · rw [← same]
      exact ⟨held, fun _ => Card.keepsFile_of_eq rfl⟩
    · rw [← opened]
      refine ⟨?_, fun _ data found => ?_⟩
      · rintro _ _ _ ⟨⟩
        exact Volume.read_write_self _ _ _ _
      · by_cases same : names path = names full
        · refine ⟨base, (Volume.read_congr same).trans (Volume.read_write_self _ _ _ _), ?_⟩
          rw [Volume.read_congr same] at found
          rw [based, found]
          exact List.prefix_rfl
        · exact ⟨data, (Volume.read_write_other same).trans found, List.prefix_rfl⟩
  | beginFlush =>
    simp only [step, beginFlush] at stepped
    split at stepped
    · split at stepped <;> cases stepped <;> exact ⟨held, fun _ => Card.keepsFile_of_eq rfl⟩
    · cases stepped
  | fragment accepted =>
    exact fragment_keeps held stepped
  | endFlush =>
    simp only [step, endFlush] at stepped
    split at stepped <;> cases stepped
    exact ⟨held, fun _ => Card.keepsFile_of_eq rfl⟩
  | closeFlush closed kept =>
    simp only [step, closeFlush] at stepped
    split at stepped <;> cases stepped
    obtain ⟨gone, _, keeps⟩ := Card.closeStream_spec held closed kept
    exact ⟨fun _ _ _ writing => absurd (gone.symm.trans writing) (by simp), fun _ => keeps path⟩
  | deleteLog index answer =>
    simp only [step, deleteLog] at stepped
    split at stepped
    · cases stepped
      exact ⟨held, fun _ => Card.keepsFile_of_eq rfl⟩
    rename_i info found
    split at stepped <;> cases stepped
    rename_i closed
    have only := system.card.removeFile_changesOnly mountPoint info.name answer
    exact ⟨changesOnly_held only (by simpa using closed) held,
      fun spares => Card.keepsFile_of_eq (only.others path (spares info found))⟩
  | renameLog index newName position answer =>
    simp only [step, renameLog] at stepped
    split at stepped
    · cases stepped
      exact ⟨held, fun _ => Card.keepsFile_of_eq rfl⟩
    rename_i info found
    split at stepped <;> cases stepped
    rename_i closed
    refine ⟨fun target base written writing => ?_, fun spares data old => ?_⟩
    · rw [system.card.renameFile_stream] at writing
      exact system.card.renameFile_present mountPoint info.name newName position answer
        (apart_of_closed (by simpa using closed) writing) (held target base written writing)
    · exact ⟨data, system.card.renameFile_present mountPoint info.name newName position answer
        (spares info found) old, List.prefix_rfl⟩
  | writeFile other data position opened kept =>
    simp only [step] at stepped
    split at stepped <;> cases stepped
    rename_i closed
    have only := system.card.writeFile_changesOnly mountPoint other data position opened kept
    exact ⟨changesOnly_held only (by simpa using closed) held, 
      fun spares => Card.keepsFile_of_eq (only.others path spares)⟩
  | mount mounted =>
    simp only [step] at stepped
    split at stepped <;> cases stepped
    exact ⟨held, fun _ => Card.keepsFile_of_eq rfl⟩
  | hostWrites volume =>
    simp only [step] at stepped
    split at stepped <;> cases stepped
    rename_i free
    have none : system.card.stream = none := by
      simp only [Bool.or_eq_true, not_or, Bool.not_eq_true, Option.isSome_eq_false_iff,
        Option.isNone_iff_eq_none] at free
      exact free.2
    exact ⟨fun _ _ _ writing => absurd (none.symm.trans writing) (by simp),
      fun same => Card.keepsFile_of_eq same⟩
  | powerLoss kept =>
    cases stepped
    obtain ⟨_, _, keeps⟩ := Card.closeStream_spec held false kept
    exact ⟨fun _ _ _ writing => (Option.some_ne_none _ writing.symm).elim, fun _ => keeps path⟩

/-- No file is open when the robot is switched on. -/
theorem held_of_run (ran : run (step mountPoint limits encode) (System.boot card) events =
    some system) : system.card.Held := by
  have closed : (System.boot card).card.Held :=
    fun _ _ _ writing => (Option.some_ne_none _ writing.symm).elim
  induction events using List.reverseRecOn generalizing system with
  | nil =>
    cases ran
    exact closed
  | append_singleton events event ih =>
    obtain ⟨before, reached, last⟩ := run_append.mp ran
    obtain ⟨next, stepped, same⟩ := run_cons.mp last
    cases same
    exact (step_keeps [] (ih reached) stepped).1

private theorem keepsFile_of_run (held : system.card.Held)
    (spared : Along (step mountPoint limits encode) (Spares mountPoint path) system events)
    (ran : run (step mountPoint limits encode) system events = some next) :
    Card.KeepsFile path system.card next.card := by
  induction events generalizing system with
  | nil =>
    cases ran
    exact Card.keepsFile_of_eq rfl
  | cons event rest ih =>
    obtain ⟨middle, stepped, after⟩ := run_cons.mp ran
    obtain ⟨opened, keeps⟩ := step_keeps path held stepped
    exact (keeps spared.1).trans (ih opened (along_cons spared stepped) after)

/-- A flush into a new file opens a path that was not on the card. -/
theorem new_file_was_absent (free : system.card.stream = none)
    (stepped : step mountPoint limits encode system (.openFlush false time position answer) =
      some next)
    (opened : next.card.stream = some (.writing target base written)) :
    system.card.volume.read target = none := by
  rcases openFlush_cases stepped with same | ⟨_, _, full, _, ⟨_, fresh⟩, same⟩
  · rw [← same] at opened
    exact absurd (free.symm.trans opened) (by simp)
  · rw [← same] at opened
    cases opened
    exact fresh rfl

/-- In any run, with refused writes, failing closes and power cuts anywhere, a
file nobody is told to delete, rename or overwrite keeps its bytes, and a flush
only puts bytes behind them; one that starts a new file never opens an old one. -/
theorem log_files_only_grow (card : Card names) (before during : List (Event names))
    (reached : run (step mountPoint limits encode) (System.boot card) before = some system)
    (spared : Along (step mountPoint limits encode) (Spares mountPoint path) system during)
    (ran : run (step mountPoint limits encode) system during = some next) :
    (∀ data, system.card.volume.read path = some data →
      ∃ later, next.card.volume.read path = some later ∧ data <+: later) ∧
    ∀ time position answer after target base written, next.card.stream = none →
      step mountPoint limits encode next (.openFlush false time position answer) = some after →
        after.card.stream = some (.writing target base written) →
          next.card.volume.read target = none :=
  ⟨keepsFile_of_run (held_of_run reached) spared ran,
    fun _ _ _ _ _ _ _ free stepped opened => new_file_was_absent free stepped opened⟩

/-- One record is flushed into a new file. -/
def flushTrace : List (Event (id : Path → Path)) :=
  [.logger (.configureBtp true), .logger (.insertLog [65] .info 10 (some 1)),
    .openFlush false bootTime 0 true, .beginFlush, .logger .sdSnapshot, .logger .sdHeader,
    .fragment 250, .fragment 250, .logger .sdRelease, .logger .sdHeader, .endFlush,
    .closeFlush true 0]

/-- The next flush appends to it, and the power goes. -/
def cutAppendTrace : List (Event (id : Path → Path)) :=
  [.logger (.insertLog [66] .warn 20 (some 2)), .openFlush true bootTime 0 true, .beginFlush,
    .logger .sdSnapshot, .logger .sdHeader, .fragment 2, .powerLoss 1]

theorem cut_append_keeps_log_file : ∃ system next,
    run (step sdMount espNowLimits plainCodec) (System.boot emptyCard) flushTrace = some system ∧
    run (step sdMount espNowLimits plainCodec) system cutAppendTrace = some next ∧
    ∀ data, system.card.volume.read (sdMount ++ slash :: logName bootTime 1) = some data →
      ∃ later, next.card.volume.read (sdMount ++ slash :: logName bootTime 1) = some later ∧
        data <+: later := by
  obtain ⟨system, reached⟩ := Option.isSome_iff_exists.mp
    (show (run (step sdMount espNowLimits plainCodec) (System.boot emptyCard) flushTrace).isSome =
      true by decide +kernel)
  obtain ⟨next, ran⟩ := Option.isSome_iff_exists.mp
    (show ((run (step sdMount espNowLimits plainCodec) (System.boot emptyCard) flushTrace).bind
      fun system => run (step sdMount espNowLimits plainCodec) system cutAppendTrace).isSome =
      true by decide +kernel)
  rw [reached, Option.bind_some] at ran
  refine ⟨system, next, reached, ran, (log_files_only_grow emptyCard flushTrace cutAppendTrace
    reached (along_of_mem (fun event member _ => ?_) system) ran).1⟩
  simp only [cutAppendTrace, List.mem_cons, List.not_mem_nil, or_false] at member
  rcases member with rfl | rfl | rfl | rfl | rfl | rfl | rfl <;> trivial

end BallyOS.Storage
