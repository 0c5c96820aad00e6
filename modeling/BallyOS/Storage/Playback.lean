import BallyOS.Library.Framing
import BallyOS.Storage.LogFlush

/-! `print_log`: a log file is read back frame by frame, each checked and sent
as it lies there. Frames carry their own length, so a file that was cut off
anywhere plays up to its last whole frame. Sizes and the check of a frame belong
to the wire library. -/
namespace BallyOS.Storage
open Library Logger

/-- What `print_log` uses of the wire library. `decodesLog` says that a frame
decodes and is of the LOG type. -/
structure FrameFormat where
  headerSize : Nat
  crcSize : Nat
  maxFrameSize : Nat
  decodesLog : List UInt8 → Bool
  says_length : 12 ≤ headerSize

namespace FrameFormat

variable (format : FrameFormat)

/-- The two bytes of a header that say how long the payload is. -/
def payloadSize (header : List UInt8) : Nat :=
  header[10]?.elim 0 UInt8.toNat + 256 * header[11]?.elim 0 UInt8.toNat

/-- A frame that says its own length and passes the checks. -/
structure Framed (frame : List UInt8) : Prop where
  length : frame.length = format.headerSize + payloadSize (frame.take format.headerSize) +
    format.crcSize
  fits : frame.length ≤ format.maxFrameSize
  decodes : format.decodesLog frame = true

end FrameFormat

section Loop

variable {Key : Type} {names : Path → Key} (mountPoint : Path) (format : FrameFormat)
  (accepts : Nat → Bool)

/-- The loop of `print_log`; `accepts` is the radio's answer to each message.
Every turn reads at least one byte, so the file's length bounds them. -/
def playFrames : Nat → Card names → List (List UInt8) → Bool × List (List UInt8) × Card names
  | 0, card, sent => (false, sent, card)
  | fuel + 1, card, sent =>
    let (header, card) := card.readStream format.headerSize
    if header = [] then (true, sent, card)
    else if header.length ≠ format.headerSize then (false, sent, card)
    else
      let tailSize := FrameFormat.payloadSize header + format.crcSize
      if format.maxFrameSize < format.headerSize + tailSize then (false, sent, card)
      else
        let (tail, card) := card.readStream tailSize
        if tail.length ≠ tailSize then (false, sent, card)
        else if format.decodesLog (header ++ tail) = false then (false, sent, card)
        else if accepts sent.length = false then (false, sent, card)
        else playFrames fuel card (sent ++ [header ++ tail])

/-- `print_log`: whether it succeeded, and the messages it sent. -/
def printLog [DecidableEq Key] (card : Card names) (index : UInt16) (opened : Bool) (readable : Nat)
    (closed : Bool) : Bool × List (List UInt8) × Card names :=
  match card.getFileInfo mountPoint index with
  | none => (false, [], card)
  | some info =>
    match card.openReadStream mountPoint info.name opened readable with
    | (false, card) => (false, [], card)
    | (true, card) =>
      let (played, sent, card) := playFrames format accepts (info.size + 1) card []
      let success := played && !card.streamHasError
      let (ended, card) := card.closeStream closed 0
      (success && ended, sent, card)

end Loop

variable {Key : Type} {names : Path → Key} {mountPoint : Path}
  {format : FrameFormat} {accepts : Nat → Bool} {card : Card names}

/-! ### Reading -/

/-- A read takes what the card still shows of the file, up to its capacity. -/
theorem readStream_visible (opened : card.stream = some (.reading left readable failed))
    (capacity : Nat) :
    ∃ left' readable' failed',
      card.readStream capacity = ((left.take readable).take capacity,
        { card with stream := some (.reading left' readable' failed') }) ∧
      left'.take readable' = (left.take readable).drop capacity ∧
      (readable' < left'.length ↔ readable < left.length) ∧
      failed' = (failed || (readable < capacity && readable < left.length)) := by
  refine ⟨left.drop (min capacity readable), readable - min capacity readable, _,
    ?_, ?_, ?_, rfl⟩
  · simp only [Card.readStream, opened, Card.Stream.take, List.take_take]
  · rw [List.drop_take]
    rcases Nat.le_total capacity readable with small | large
    · rw [Nat.min_eq_left small]
    · rw [Nat.min_eq_right large, Nat.sub_self, Nat.sub_eq_zero_of_le large]
      rfl
  · rw [List.length_drop]
    omega

/-- What playing a stream comes to: it sends whole frames up to the first the
radio refuses, and succeeds exactly when all were sent and nothing is left over. -/
structure Played (accepts : Nat → Bool) (card : Card names) (frames : List (List UInt8))
    (whole flawed : Prop) (sent : List (List UInt8))
    (result : Bool × List (List UInt8) × Card names) (count : Nat) : Prop where
  within : count ≤ frames.length
  sends : result.2.1 = sent ++ frames.take count
  accepted : ∀ index < count, accepts (sent.length + index) = true
  refused : count < frames.length → accepts (sent.length + count) = false
  success : result.1 = true ↔ count = frames.length ∧ whole
  stream : ∃ left readable failed, result.2.2 =
      { card with stream := some (.reading left readable failed) } ∧
    (result.1 = true → (failed = true ↔ flawed))

private theorem played_none {card next : Card names} {whole flawed : Prop}
    (ended : next = { card with stream := some (.reading left readable failed) })
    (broken : ¬whole) :
    Played accepts card [] whole flawed sent (false, sent, next) 0 where
  within := Nat.zero_le _
  sends := by simp
  accepted := by simp
  refused := by simp
  success := by simp [broken]
  stream := ⟨left, readable, failed, ended, by simp⟩

private theorem framed_header (framed : format.Framed frame) :
    format.headerSize ≤ frame.length ∧ frame.take format.headerSize ≠ [] ∧
      (frame.take format.headerSize).length = format.headerSize := by
  have length := framed.length
  have some := format.says_length
  have size : (frame.take format.headerSize).length = format.headerSize := by
    rw [List.length_take]
    omega
  refine ⟨by omega, fun none => ?_, size⟩
  rw [none, List.length_nil] at size
  omega

/-- A file that ends in a piece of a frame fails there, and one that ends with
a frame is played to its end. -/
private theorem played_piece (fuel : Nat)
    (opened : card.stream = some (.reading left readable failed))
    (visible : left.take readable = piece)
    (torn : piece = [] ∨ ∃ frame, format.Framed frame ∧ piece <+: frame ∧
      piece.length < frame.length) :
    Played accepts card [] (piece = []) (failed = true ∨ readable < left.length) sent
      (playFrames format accepts (fuel + 1) card sent) 0 := by
  obtain ⟨left', readable', failed', first, after, hidden, failing⟩ :=
    readStream_visible opened format.headerSize
  rw [visible] at first after
  simp only [playFrames, first]
  by_cases none : piece.take format.headerSize = []
  · have empty : piece = [] := by
      have := format.says_length
      rcases List.take_eq_nil_iff.mp none with zero | empty
      · omega
      · exact empty
    rw [if_pos none]
    refine ⟨Nat.zero_le _, by simp, by simp, by simp, by simp [empty], left', readable', failed',
      rfl, fun _ => ?_⟩
    rw [failing]
    have short : readable < left.length → readable < format.headerSize := by
      intro more
      have length := congrArg List.length (visible.trans empty)
      have := format.says_length
      rw [List.length_take, List.length_nil] at length
      omega
    simp only [Bool.or_eq_true, Bool.and_eq_true, decide_eq_true_eq]
    exact or_congr_right ⟨fun both => both.2, fun more => ⟨short more, more⟩⟩
  rw [if_neg none]
  have some : piece ≠ [] := fun empty => none (by simp [empty])
  split
  · exact played_none rfl some
  rename_i full
  obtain ⟨frame, framed, inside, less⟩ := torn.resolve_left some
  split
  · exact played_none rfl some
  -- The header is the frame's own, and the rest of it is not all there.
  have enough : format.headerSize ≤ piece.length := by
    rw [List.length_take] at full
    omega
  have header : piece.take format.headerSize = frame.take format.headerSize := by
    obtain ⟨rest, rfl⟩ := inside
    rw [List.take_append_of_le_length enough]
  have reading : ({ card with stream := Option.some (.reading left' readable' failed') } :
      Card names).stream = Option.some (.reading left' readable' failed') := rfl
  obtain ⟨left₂, readable₂, failed₂, second, _, _, _⟩ := readStream_visible reading
    (FrameFormat.payloadSize (piece.take format.headerSize) + format.crcSize)
  rw [after] at second
  simp only [second]
  rw [if_pos]
  · exact played_none rfl some
  · have length := framed.length
    rw [List.length_take, List.length_drop, header]
    omega

/-- The whole loop, frame by frame. -/
theorem played_frames (framed : ∀ frame ∈ frames, format.Framed frame)
    (opened : card.stream = some (.reading left readable failed))
    (visible : left.take readable = frames.flatten ++ piece)
    (torn : piece = [] ∨ ∃ frame, format.Framed frame ∧ piece <+: frame ∧
      piece.length < frame.length) (enough : frames.length ≤ fuel) :
    ∃ count, Played accepts card frames (piece = []) (failed = true ∨ readable < left.length) sent
      (playFrames format accepts (fuel + 1) card sent) count := by
  induction frames generalizing card left readable failed sent fuel with
  | nil => exact ⟨0, played_piece fuel opened (by simpa using visible) torn⟩
  | cons frame frames ih =>
    obtain ⟨fuel, rfl⟩ : ∃ less, fuel = less + 1 := ⟨fuel - 1, by simp at enough; omega⟩
    have here := framed frame List.mem_cons_self
    have length := here.length
    have fits := here.fits
    obtain ⟨long, some, size⟩ := framed_header here
    obtain ⟨left₁, readable₁, failed₁, first, after, hidden₁, failing₁⟩ :=
      readStream_visible opened format.headerSize
    rw [List.flatten_cons, List.append_assoc] at visible
    rw [visible, List.take_append_of_le_length long] at first
    rw [visible, List.drop_append_of_le_length long] at after
    -- A frame that is shown in full is read without an error.
    have shown : frame.length ≤ readable := by
      have total := congrArg List.length visible
      rw [List.length_take, List.length_append] at total
      omega
    have sound₁ : failed₁ = failed := by
      rw [failing₁]
      simp only [Bool.or_eq_left_iff_imp, Bool.and_eq_true, decide_eq_true_eq]
      omega
    have reading : ({ card with stream := Option.some (.reading left₁ readable₁ failed₁) } :
        Card names).stream = Option.some (.reading left₁ readable₁ failed₁) := rfl
    obtain ⟨left₂, readable₂, failed₂, second, rest, hidden₂, failing₂⟩ :=
      readStream_visible reading
        (FrameFormat.payloadSize (frame.take format.headerSize) + format.crcSize)
    have tail : (frame.drop format.headerSize).length =
        FrameFormat.payloadSize (frame.take format.headerSize) + format.crcSize := by
      rw [List.length_drop]
      omega
    rw [after, ← tail, List.take_left] at second
    rw [after, ← tail, List.drop_left] at rest
    have shown₂ : (frame.drop format.headerSize).length ≤ readable₁ := by
      have total := congrArg List.length after
      rw [List.length_take, List.length_append] at total
      omega
    have sound₂ : failed₂ = failed := by
      rw [failing₂, sound₁]
      simp only [Bool.or_eq_left_iff_imp, Bool.and_eq_true, decide_eq_true_eq]
      omega
    have frame_split : frame.take format.headerSize ++ frame.drop format.headerSize = frame :=
      List.take_append_drop _ _
    rw [playFrames]
    simp only [first]
    rw [if_neg some, if_neg (by simp [size]), if_neg (by omega)]
    rw [← tail]
    simp only [second]
    rw [if_neg (by simp), frame_split, if_neg (by simp [here.decodes])]
    split
    · rename_i refusal
      refine ⟨0, Nat.zero_le _, by simp, by simp, fun _ => refusal, by simp, left₂, readable₂,
        failed₂, rfl, by simp⟩
    · rename_i taken
      obtain ⟨count, played⟩ :=
        ih (fun other member => framed other (List.mem_cons_of_mem _ member))
        (show ({ card with stream := Option.some (.reading left₂ readable₂ failed₂) } :
          Card names).stream = Option.some (.reading left₂ readable₂ failed₂) from rfl) rest
        (by simpa using enough)
      obtain ⟨within, sends, accepted, refused, success, left₃, readable₃, failed₃, same, flaw⟩ :=
        played
      refine ⟨count + 1, by simpa using within, ?_, ?_, ?_, ?_, left₃, readable₃, failed₃, same, ?_⟩
      · rw [sends, List.take_succ_cons, List.append_assoc, List.singleton_append]
      · intro index less
        cases index with
        | zero => simpa using taken
        | succ index =>
          have := accepted index (by omega)
          rwa [List.length_append, List.length_singleton, Nat.add_assoc, Nat.add_comm 1] at this
      · intro less
        have := refused (by simpa using less)
        rwa [List.length_append, List.length_singleton, Nat.add_assoc, Nat.add_comm 1] at this
      · rw [success, List.length_cons, Nat.add_right_cancel_iff]
      · intro done
        rw [flaw done, sound₂, hidden₂, hidden₁]

/-! ### A whole file -/

private theorem length_le_flatten {frames : List (List UInt8)}
    (framed : ∀ frame ∈ frames, format.Framed frame) : frames.length ≤ frames.flatten.length := by
  induction frames with
  | nil => exact Nat.le_refl _
  | cons frame frames ih =>
    have long := (framed_header (framed frame List.mem_cons_self)).1
    have some := format.says_length
    have rest := ih fun other member => framed other (List.mem_cons_of_mem _ member)
    rw [List.length_cons, List.flatten_cons, List.length_append]
    omega

/-- Playing a stream that is open at the start of a file. -/
private theorem played_file {frames : List (List UInt8)} (accepts : Nat → Bool)
    (framed : ∀ frame ∈ frames, format.Framed frame) (cut : data <+: frames.flatten)
    (opened : card.stream = some (.reading data readable false)) :
    ∃ piece count, data.take readable =
        (frames.take (wholeFrames frames (data.take readable).length)).flatten ++ piece ∧
      Played accepts card (frames.take (wholeFrames frames (data.take readable).length))
        (piece = []) (readable < data.length) []
        (playFrames format accepts (data.length + 1) card []) count := by
  obtain ⟨piece, split, torn⟩ := prefix_flatten ((List.take_prefix readable data).trans cut)
  have some : ∀ frame ∈ frames.take (wholeFrames frames (data.take readable).length),
      format.Framed frame := fun frame member => framed frame (List.mem_of_mem_take member)
  have enough : (frames.take (wholeFrames frames (data.take readable).length)).length ≤
      data.length := by
    have less := length_le_flatten some
    have total := congrArg List.length split
    have short := List.length_take_le' readable data
    rw [List.length_append] at total
    omega
  have torn' : piece = [] ∨ ∃ frame, format.Framed frame ∧ piece <+: frame ∧
      piece.length < frame.length :=
    torn.imp_right fun ⟨frame, next, inside⟩ =>
      ⟨frame, framed frame (List.mem_of_getElem? next), inside⟩
  obtain ⟨count, played⟩ : ∃ count, Played accepts card _ (piece = [])
      (false = true ∨ readable < data.length) []
      (playFrames format accepts (data.length + 1) card []) count :=
    played_frames some opened split torn' enough
  exact ⟨piece, count, split, by simpa using played⟩

variable [DecidableEq Key]

/-- A file that is the front of a sequence of frames plays its whole frames, in
order, up to what the radio takes and the card can read; it plays with success
exactly when that was everything. -/
theorem printLog_sends {frames : List (List UInt8)} (absolute : mountPoint.head? = some slash)
    (idle : card.stream = none) (listed : card.getFileInfo mountPoint index = some info)
    (named : card.makePath mountPoint info.name = some path)
    (held : card.volume.read path = some data)
    (framed : ∀ frame ∈ frames, format.Framed frame) (cut : data <+: frames.flatten) :
    ∃ piece, data = (frames.take (wholeFrames frames data.length)).flatten ++ piece ∧
      Torn frames (wholeFrames frames data.length) piece ∧
      ∀ accepts opened readable closed,
        let result := printLog mountPoint format accepts card index opened readable closed
        (∃ count ≤ wholeFrames frames data.length, result.2.1 = frames.take count) ∧
        (result.1 = true ↔ opened = true ∧ data.length ≤ readable ∧
          (∀ number < wholeFrames frames data.length, accepts number = true) ∧ piece = [] ∧
          closed = true) ∧
        (opened = true → data.length ≤ readable →
          (∀ number < wholeFrames frames data.length, accepts number = true) →
            result.2.1 = frames.take (wholeFrames frames data.length)) := by
  obtain ⟨piece, split, torn⟩ := prefix_flatten cut
  refine ⟨piece, split, torn, fun accepts opened readable closed => ?_⟩
  obtain ⟨other, data', made, found, size⟩ := Card.getFileInfo_spec absolute listed
  cases named.symm.trans made
  cases held.symm.trans found
  cases opened with
  | false =>
    have none : printLog mountPoint format accepts card index false readable closed =
        (false, [], card) := by
      simp [printLog, listed, Card.openReadStream, idle, named, held]
    rw [none]
    exact ⟨⟨0, Nat.zero_le _, rfl⟩, by simp, by simp⟩
  | true =>
    have start : ({ card with stream := Option.some (.reading data readable false) } :
        Card names).stream = Option.some (.reading data readable false) := rfl
    obtain ⟨rest, count, shown, played⟩ := played_file accepts framed cut start
    obtain ⟨within, sends, accepted, refused, success, left, readable', failed, next, flaw⟩ :=
      played
    have unfolded : printLog mountPoint format accepts card index true readable closed =
        ((playFrames format accepts (data.length + 1)
            { card with stream := Option.some (.reading data readable false) } []).1 &&
              !failed && closed,
          (playFrames format accepts (data.length + 1)
            { card with stream := Option.some (.reading data readable false) } []).2.1,
          { card with stream := none }) := by
      simp [printLog, listed, Card.openReadStream, idle, named, held, size, next,
        Card.streamHasError, Card.closeStream]
    rw [unfolded]
    generalize playFrames format accepts (data.length + 1)
      { card with stream := Option.some (.reading data readable false) } [] = result
      at sends success next flaw ⊢
    have fewer : wholeFrames frames (data.take readable).length ≤ wholeFrames frames data.length :=
      wholeFrames_mono frames (List.length_take_le' readable data)
    have exists' := wholeFrames_le frames (data.take readable).length
    rw [List.length_take, Nat.min_eq_left exists'] at within refused success
    simp only [List.length_nil, Nat.zero_add, List.nil_append, List.take_take,
      Nat.min_eq_left within] at accepted refused sends
    -- Where the card can read everything, what it shows is the whole file.
    have everything : data.length ≤ readable → data.take readable = data ∧ rest = piece := by
      intro enough
      have same := List.take_of_length_le enough
      rw [same] at shown
      exact ⟨same, List.append_cancel_left (shown.symm.trans split)⟩
    have sent_all : data.length ≤ readable →
        (∀ number < wholeFrames frames data.length, accepts number = true) →
          count = wholeFrames frames data.length := by
      intro enough taken
      rw [(everything enough).1] at within refused
      by_contra other
      have less : count < wholeFrames frames data.length := Nat.lt_of_le_of_ne within other
      exact absurd ((refused less).symm.trans (taken count less)) (by decide)
    refine ⟨⟨count, Nat.le_trans within fewer, sends⟩, ?_, ?_⟩
    · simp only [Bool.and_eq_true, Bool.not_eq_true', true_and]
      constructor
      · rintro ⟨⟨done, sound⟩, ended⟩
        have enough : data.length ≤ readable := by
          have unflawed := mt (flaw done).mpr (by simp [sound])
          omega
        obtain ⟨same, left⟩ := everything enough
        obtain ⟨all, whole⟩ := success.mp done
        rw [same] at all
        exact ⟨enough, fun number less => accepted number (all ▸ less), left ▸ whole, ended⟩
      · rintro ⟨enough, taken, whole, ended⟩
        obtain ⟨same, left⟩ := everything enough
        have done : result.1 = true := success.mpr ⟨by rw [same]; exact sent_all enough taken,
          left.trans whole⟩
        have sound : ¬failed = true := fun broken =>
          absurd ((flaw done).mp broken) (Nat.not_lt_of_le enough)
        exact ⟨⟨done, by simpa using sound⟩, ended⟩
    · intro _ enough taken
      rw [sends, sent_all enough taken]

end BallyOS.Storage
