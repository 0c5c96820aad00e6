import BallyOS.Storage.Account
import BallyOS.Storage.Playback

/-! What a log file holds over a whole run, and what it plays. While the card
does what it is asked, a file that began in this boot is exactly the frames the
card took for it, one after the other; when the power goes during a flush, it
is a front of them, and plays the frames that are whole. -/
namespace BallyOS.Storage
open Library Logger

variable {Key : Type} [DecidableEq Key] {names : Path → Key} {mountPoint : Path}
  {limits : Limits} {encode : Fragment → Option (List UInt8)} {system next : System names}
  {path : Path} {format : FrameFormat}

/-- The frames of a list that went to the file a path means. -/
def framesOf (names : Path → Key) (path : Path) (taken : List (Path × List UInt8)) :
    List (List UInt8) :=
  (taken.filter fun frame => names frame.1 = names path).map Prod.snd

@[simp] theorem framesOf_append (first second : List (Path × List UInt8)) :
    framesOf names path (first ++ second) =
      framesOf names path first ++ framesOf names path second := by
  simp [framesOf]

/-- What was written to a file so far, closed or not. -/
def written (path : Path) (card : Card names) : List UInt8 :=
  match card.stream with
  | some (.writing target _ bytes) => if names target = names path then bytes else []
  | _ => []

def contents (path : Path) (card : Card names) : List UInt8 :=
  (card.volume.read path).getD [] ++ written path card

/-- The event is no order that concerns the file: it is not deleted, renamed or
overwritten, and no other file takes its name. -/
def Undisturbed (mountPoint path : Path) (system : System names) (event : Event names) : Prop :=
  Spares mountPoint path system event ∧
    ∀ index newName position answer, event = .renameLog index newName position answer →
      ∀ full, system.card.makePath mountPoint newName = some full → names full ≠ names path

private theorem contents_congr {before after : Card names} (stream : after.stream = before.stream)
    (read : after.volume.read path = before.volume.read path) :
    contents path after = contents path before := by
  simp only [contents, written, stream, read]

private theorem contents_opened (free : system.card.stream = none)
    (based : base = (system.card.volume.read full).getD []) (position : Nat) :
    contents path { system.card with
      volume := system.card.volume.write full base position
      stream := some (.writing full base []) } = contents path system.card := by
  have nothing : written path { system.card with
      volume := system.card.volume.write full base position
      stream := some (.writing full base []) } = [] := by
    simp only [written]
    split <;> rfl
  rw [contents, contents, nothing, List.append_nil, written, free, List.append_nil]
  by_cases same : names path = names full
  · rw [Volume.read_congr same, Volume.read_write_self, Volume.read_congr same, based]
    rfl
  · rw [Volume.read_write_other same]

/-- Closing moves what was written into the file. -/
private theorem contents_closed (held : system.card.Held) (kept : Nat) :
    contents path (system.card.closeStream true kept).2 = contents path system.card := by
  unfold Card.closeStream
  split
  · rfl
  · rename_i opened
    simp [contents, written, opened]
  · rename_i target base bytes opened
    have before := held target base bytes opened
    simp only [contents, written, opened, if_true, List.append_nil]
    by_cases same : names path = names target
    · rw [Volume.read_congr same, Volume.read_update_self before, Volume.read_congr same, before,
        if_pos same.symm]
      rfl
    · rw [Volume.read_update_other same, if_neg (Ne.symm same), List.append_nil]

/-- What a step adds to the frames taken is what it adds to the file. -/
def Adds (encode : Fragment → Option (List UInt8)) (path : Path) (system next : System names) :
    Prop :=
  ∃ more, next.taken = system.taken ++ more ∧
    contents path next.card = contents path system.card ++ (framesOf names path more).flatten ∧
    ∀ frame ∈ more, ∃ fragment, encode fragment = some frame.2

private theorem adds_nothing (taken : next.taken = system.taken)
    (same : contents path next.card = contents path system.card) : Adds encode path system next :=
  ⟨[], by simp [taken], by simp [framesOf, same], by simp⟩

private theorem adds_fragment (healthy : Healthy limits encode system (.fragment accepted))
    (stepped : flushFragment limits encode system accepted = some next) :
    Adds encode path system next := by
  unfold flushFragment at stepped
  split at stepped
  · rename_i target base bytes _ opened
    split at stepped
    · obtain ⟨world, _, rfl⟩ := Option.map_eq_some_iff.mp stepped
      exact adds_nothing rfl rfl
    · rename_i frame pending
      obtain ⟨world, _, rfl⟩ := Option.map_eq_some_iff.mp stepped
      have whole : frame.length ≤ accepted := healthy frame pending
      refine ⟨[(target, frame)], ?_, ?_, ?_⟩
      · simp [opened, whole]
      · simp only [opened, contents, written, List.take_of_length_le whole]
        by_cases same : names target = names path
        · simp [framesOf, same]
        · simp [framesOf, same]
      · intro other member
        cases List.mem_singleton.mp member
        unfold pendingFrame at pending
        split at pending
        · split at pending
          · exact ⟨_, pending⟩
          · cases pending
        · cases pending
  · cases stepped

private theorem adds_rename
    (undisturbed : Undisturbed mountPoint path system (.renameLog index newName position answer))
    (stepped : renameLog mountPoint system index newName position answer = some next) :
    Adds encode path system next := by
  obtain ⟨spares, free⟩ := undisturbed
  unfold renameLog at stepped
  split at stepped
  · cases stepped
    exact adds_nothing rfl rfl
  rename_i info found
  split at stepped <;> cases stepped
  refine adds_nothing rfl (contents_congr (system.card.renameFile_stream ..) ?_)
  rcases system.card.renameFile_cases mountPoint info.name newName position answer with
    same | ⟨current, new, data, made, renamed, _, moved⟩
  · rw [same]
  · rw [moved]
    have apart := (spares info found current made).symm
    have other := (free _ _ _ _ rfl new renamed).symm
    exact (Volume.read_write_other other).trans (Volume.read_remove_other apart)

/-- While the card does what it is asked, a step adds to the file exactly the
frame the card takes for it. -/
theorem adds_step (held : system.card.Held) (healthy : Healthy limits encode system event)
    (undisturbed : Undisturbed mountPoint path system event)
    (stepped : step mountPoint limits encode system event = some next) :
    Adds encode path system next := by
  have spares := undisturbed.1
  cases event with
  | logger event =>
    simp only [step] at stepped
    split at stepped
    · cases stepped
    obtain ⟨world, _, rfl⟩ := Option.map_eq_some_iff.mp stepped
    exact adds_nothing rfl rfl
  | openFlush append time position answer =>
    rcases openFlush_cases stepped with same | ⟨free, _, full, base, ⟨based, _⟩, same⟩ <;>
      rw [← same]
    · exact adds_nothing rfl rfl
    · exact adds_nothing rfl (contents_opened free based position)
  | beginFlush =>
    simp only [step, beginFlush] at stepped
    split at stepped
    · split at stepped <;> cases stepped <;> exact adds_nothing rfl rfl
    · cases stepped
  | fragment accepted => exact adds_fragment healthy stepped
  | endFlush =>
    simp only [step, endFlush] at stepped
    split at stepped <;> cases stepped
    exact adds_nothing rfl rfl
  | closeFlush closed kept =>
    simp only [step, closeFlush] at stepped
    split at stepped <;> cases stepped
    cases (show closed = true from healthy)
    exact adds_nothing rfl (contents_closed held kept)
  | deleteLog index answer =>
    simp only [step, deleteLog] at stepped
    split at stepped
    · cases stepped
      exact adds_nothing rfl rfl
    rename_i info found
    split at stepped <;> cases stepped
    have only := system.card.removeFile_changesOnly mountPoint info.name answer
    exact adds_nothing rfl (contents_congr only.stream (only.others path (spares info found)))
  | renameLog index newName position answer => exact adds_rename undisturbed stepped
  | writeFile other data position opened kept =>
    simp only [step] at stepped
    split at stepped <;> cases stepped
    have only := system.card.writeFile_changesOnly mountPoint other data position opened kept
    exact adds_nothing rfl (contents_congr only.stream (only.others path spares))
  | mount mounted =>
    simp only [step] at stepped
    split at stepped <;> cases stepped
    exact adds_nothing rfl rfl
  | hostWrites volume =>
    simp only [step] at stepped
    split at stepped <;> cases stepped
    exact adds_nothing rfl (contents_congr rfl spares)
  | powerLoss kept => exact absurd healthy id

/-- Along a whole run the file grows by exactly the frames taken for it. -/
theorem adds_run (held : system.card.Held)
    (meets : Along (step mountPoint limits encode) (fun system event =>
      Healthy limits encode system event ∧ Undisturbed mountPoint path system event) system events)
    (ran : run (step mountPoint limits encode) system events = some next) :
    Adds encode path system next ∧ next.card.Held := by
  induction events generalizing system with
  | nil =>
    cases ran
    exact ⟨adds_nothing rfl rfl, held⟩
  | cons event rest ih =>
    obtain ⟨middle, stepped, after⟩ := run_cons.mp ran
    obtain ⟨first, taken₁, contents₁, coded₁⟩ := adds_step held meets.1.1 meets.1.2 stepped
    obtain ⟨⟨second, taken₂, contents₂, coded₂⟩, held₂⟩ :=
      ih (step_keeps path held stepped).1 (along_cons meets stepped) after
    refine ⟨⟨first ++ second, ?_, ?_, ?_⟩, held₂⟩
    · rw [taken₂, taken₁, List.append_assoc]
    · rw [contents₂, contents₁, framesOf_append, List.flatten_append, List.append_assoc]
    · intro frame member
      rcases List.mem_append.mp member with early | late
      · exact coded₁ frame early
      · exact coded₂ frame late

omit [DecidableEq Key] in
private theorem boot_card {card : Card names} (idle : card.stream = none) :
    (System.boot card).card = card := by
  cases card
  cases idle
  rfl

/-- A cut leaves a front of what was written to the file. -/
private theorem read_after_cut (held : system.card.Held)
    (found : (system.card.closeStream false kept).2.volume.read path = some data) :
    data <+: contents path system.card ∧
      (system.card.stream = none → data = contents path system.card) := by
  unfold Card.closeStream at found
  split at found
  · rename_i free
    simp [contents, written, free, found]
  · rename_i opened
    simp [contents, written, opened, found]
  · rename_i target base bytes opened
    have before := held target base bytes opened
    refine ⟨?_, fun free => absurd (free.symm.trans opened) (by simp)⟩
    by_cases same : names path = names target
    · rw [Volume.read_congr same, Volume.read_update_self before] at found
      cases found
      rw [contents, Volume.read_congr same, before]
      simp only [written, opened, if_pos same.symm, Option.getD_some, Bool.false_eq_true, if_false]
      exact (List.prefix_append_right_inj base).mpr (List.take_prefix kept bytes)
    · rw [Volume.read_update_other same] at found
      rw [contents, found]
      simp [written, opened, Ne.symm same]

/-- A log file that began in this boot, in any run in which the card did what
it was asked until the power went. It holds whole frames of those the card took
for it, from the first on, and at most a front of the next, all of them if no
flush was under way; `print_log` sends the whole ones in order, as far as the
radio takes them, and says so when that was everything the file holds. -/
theorem playback_after_power_loss (card : Card names) (absolute : mountPoint.head? = some slash)
    (absent : card.volume.read path = none)
    (framed : ∀ fragment frame, encode fragment = some frame → format.Framed frame)
    (meets : Along (step mountPoint limits encode) (fun system event =>
      Healthy limits encode system event ∧ Undisturbed mountPoint path system event)
        (System.boot card) events)
    (ran : run (step mountPoint limits encode) (System.boot card) events = some system)
    (lost : step mountPoint limits encode system (.powerLoss kept) = some next)
    (listed : next.card.getFileInfo mountPoint index = some info)
    (meant : ∀ full, next.card.makePath mountPoint info.name = some full →
      names full = names path) :
    ∃ whole piece, (next.card.volume.read path) =
        some (((framesOf names path system.taken).take whole).flatten ++ piece) ∧
      Torn (framesOf names path system.taken) whole piece ∧
      (system.card.stream = none → whole = (framesOf names path system.taken).length ∧ piece = []) ∧
      ∀ accepts opened readable closed,
        let result := printLog mountPoint format accepts next.card index opened readable closed
        (∃ count ≤ whole, result.2.1 = (framesOf names path system.taken).take count) ∧
        (result.1 = true ↔ opened = true ∧
          (((framesOf names path system.taken).take whole).flatten ++ piece).length ≤ readable ∧
          (∀ number < whole, accepts number = true) ∧ piece = [] ∧ closed = true) ∧
        (opened = true →
          (((framesOf names path system.taken).take whole).flatten ++ piece).length ≤ readable →
          (∀ number < whole, accepts number = true) →
            result.2.1 = (framesOf names path system.taken).take whole) := by
  have closed' : (System.boot card).card.Held :=
    fun _ _ _ writing => (Option.some_ne_none _ writing.symm).elim
  obtain ⟨⟨more, taken, whole, coded⟩, held⟩ := adds_run closed' meets ran
  have all : contents path system.card = (framesOf names path system.taken).flatten := by
    have nothing : contents path (System.boot card).card = [] := by
      simp [contents, written, System.boot, absent]
    rw [whole, nothing, taken]
    rfl
  have sound : ∀ frame ∈ framesOf names path system.taken, format.Framed frame := by
    intro frame member
    obtain ⟨entry, inside, rfl⟩ := List.mem_map.mp member
    rw [taken] at inside
    obtain ⟨fragment, encoded⟩ := coded entry (by simpa [System.boot] using
      (List.mem_filter.mp inside).1)
    exact framed fragment _ encoded
  have idle := (Card.closeStream_spec held false kept).1
  have left : next.card = (system.card.closeStream false kept).2 := by
    cases lost
    exact boot_card idle
  rw [left] at listed meant ⊢
  obtain ⟨full, data, made, found, _⟩ := Card.getFileInfo_spec absolute listed
  have same := meant full made
  rw [Volume.read_congr same] at found
  obtain ⟨front, exactly⟩ := read_after_cut held found
  rw [all] at front exactly
  obtain ⟨piece, split, torn, plays⟩ := printLog_sends absolute idle listed made
    ((Volume.read_congr same).trans found) sound front
  refine ⟨_, piece, found.trans (congrArg some split), torn, ?_, ?_⟩
  · intro free
    have data_all := exactly free
    have count : wholeFrames (framesOf names path system.taken) data.length =
        (framesOf names path system.taken).length := by
      rw [data_all, wholeFrames_flatten]
    refine ⟨count, ?_⟩
    rw [count, List.take_length, data_all] at split
    exact (List.self_eq_append_right.mp split)
  · rw [← split]
    exact plays

/-- A codec in the clear that says a frame's length where `print_log` looks for it. -/
def frameCodec (fragment : Fragment) : Option (List UInt8) :=
  if fragment.payload.length ≤ espNowLimits.maxPayloadSize then
    some ([fragment.type, fragment.fragmentIndex, fragment.fragmentCount, 0, 0, 0, 0, 0, 0, 0] ++
      toBytes 2 fragment.payload.length ++ fragment.payload ++ [0, 0])
  else none

def plainFormat : FrameFormat := ⟨12, 2, 250, fun _ => true, by decide⟩

private theorem frameCodec_framed (coded : frameCodec fragment = some frame) :
    plainFormat.Framed frame ∧ frame.length ≤ 224 := by
  unfold frameCodec at coded
  split at coded
  · rename_i small
    cases coded
    have payload : fragment.payload.length ≤ 210 := small
    refine ⟨⟨?_, ?_, rfl⟩, ?_⟩
    · simp [plainFormat, FrameFormat.payloadSize, toBytes]
      omega
    · simp [plainFormat]
      omega
    · simp
      omega
  · cases coded

/-- Two frames are handed over, and the power goes within the second. -/
def cutFlushTrace : List (Event (id : Path → Path)) :=
  [.logger (.configureBtp true), .logger (.insertLog [65] .info 10 (some 1)),
    .logger (.insertLog [66, 67] .warn 20 (some 2)), .openFlush false bootTime 0 true, .beginFlush,
    .logger .sdSnapshot, .logger .sdHeader, .fragment 224, .fragment 224, .logger .sdRelease,
    .logger .sdHeader, .fragment 224]

theorem playback_after_cut_flush : ∃ system next whole piece,
    run (step sdMount espNowLimits frameCodec) (System.boot emptyCard) cutFlushTrace =
      some system ∧
    step sdMount espNowLimits frameCodec system (.powerLoss 20) = some next ∧
    next.card.volume.read (sdMount ++ slash :: logName bootTime 1) =
      some (((framesOf id (sdMount ++ slash :: logName bootTime 1) system.taken).take whole).flatten
        ++ piece) ∧
    Torn (framesOf id (sdMount ++ slash :: logName bootTime 1) system.taken) whole piece ∧
    ∀ readable, (((framesOf id (sdMount ++ slash :: logName bootTime 1) system.taken).take
        whole).flatten ++ piece).length ≤ readable →
      (printLog sdMount plainFormat (fun _ => true) next.card 0 true readable true).2.1 =
        (framesOf id (sdMount ++ slash :: logName bootTime 1) system.taken).take whole := by
  obtain ⟨system, ran⟩ := Option.isSome_iff_exists.mp
    (show (run (step sdMount espNowLimits frameCodec) (System.boot emptyCard)
      cutFlushTrace).isSome = true by decide +kernel)
  obtain ⟨next, lost⟩ : ∃ next,
      step sdMount espNowLimits frameCodec system (.powerLoss 20) = some next := ⟨_, rfl⟩
  have computed : (run (step sdMount espNowLimits frameCodec) (System.boot emptyCard)
      cutFlushTrace).bind (fun system =>
        (step sdMount espNowLimits frameCodec system (.powerLoss 20)).bind fun next =>
          (next.card.getFileInfo sdMount 0).bind fun info =>
            (next.card.makePath sdMount info.name).map fun full => (info, full)) =
      some (⟨logName bootTime 1, 20⟩, sdMount ++ slash :: logName bootTime 1) := by
    decide +kernel
  rw [ran, Option.bind_some, lost, Option.bind_some] at computed
  obtain ⟨info, listed, named⟩ := Option.bind_eq_some_iff.mp computed
  obtain ⟨path, made, same⟩ := Option.map_eq_some_iff.mp named
  cases same
  have meets : Along (step sdMount espNowLimits frameCodec) (fun system event =>
      Healthy espNowLimits frameCodec system event ∧
        Undisturbed sdMount (sdMount ++ slash :: logName bootTime 1) system event)
      (System.boot emptyCard) cutFlushTrace := by
    refine along_of_mem (fun event member system => ?_) _
    have takes : Healthy espNowLimits frameCodec system (.fragment 224) := by
      intro frame pending
      unfold pendingFrame at pending
      split at pending
      · split at pending
        · exact (frameCodec_framed pending).2
        · cases pending
      · cases pending
    simp only [cutFlushTrace, List.mem_cons, List.not_mem_nil, or_false] at member
    rcases member with rfl | rfl | rfl | rfl | rfl | rfl | rfl | rfl | rfl | rfl | rfl | rfl
    all_goals first
      | exact ⟨takes, trivial, nofun⟩
      | exact ⟨trivial, trivial, nofun⟩
  have framed : ∀ fragment frame, frameCodec fragment = some frame → plainFormat.Framed frame :=
    fun _ _ coded => (frameCodec_framed coded).1
  obtain ⟨whole, piece, held, torn, _, plays⟩ :=
    playback_after_power_loss emptyCard rfl rfl framed meets ran lost
    listed (fun full made' => Option.some.inj (made'.symm.trans made))
  refine ⟨system, next, whole, piece, ran, lost, held, torn, fun readable enough => ?_⟩
  exact (plays (fun _ => true) true readable true).2.2 rfl enough fun _ _ => rfl

end BallyOS.Storage
