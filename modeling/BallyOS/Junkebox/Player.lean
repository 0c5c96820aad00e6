import BallyOS.Library.Stopping
import BallyOS.Junkebox.Notes

/-! Playing a song: the lines of the buffer, once for each repetition that the text itself asks
for, with a wait after each note that a notification cuts short. -/
namespace BallyOS.Junkebox
open Library

def maxSongFileBytes : Nat := 4096

def maxSongLineBytes : Nat := 64

def maxSongLoops : UInt32 := 100

/-- What a directive asks for, and the line without its carriage return. -/
def parseLoopLine (line : List UInt8) : Option UInt16 × List UInt8 :=
  let trimmed := withoutReturn line
  let text := trimmed.dropWhile isSpaceOrTab
  if sameLetters (text.take 5) (ascii "LOOP,") then
    let (value, behind) := strtoulEnd (text.drop 5)
    let rest := behind.dropWhile isSpaceOrTab
    if rest = text.drop 5 ∨ rest ≠ [] ∨ value = 0 ∨ value > maxSongLoops then (none, trimmed)
    else (some value.toUInt16, trimmed)
  else (none, trimmed)

/-- A tone and for how long it is held. -/
abbrev Tone := UInt16 × UInt32

/-- What the player makes of a line. -/
inductive Effect
  | nothing
  | loops (count : UInt16)
  | plays (tone : Tone)
deriving Repr, DecidableEq

/-- The line is parsed in a copy of its own, which either parser may change. -/
def readLine (freq : Int → ℚ) (line : List UInt8) : Effect :=
  if line.length ≥ maxSongLineBytes then .nothing
  else
    match parseLoopLine line with
    | (some count, _) => .loops count
    | (none, copy) =>
      match parseNoteLine freq copy with
      | some tone => .plays tone
      | none => .nothing

/-- The lines that the cursor goes over, of which `line` is the beginning of the first: up to each
newline, and what is behind the last one unless that is nothing. -/
def linesFrom (line : List UInt8) : List UInt8 → List (List UInt8)
  | [] => if line = [] then [] else [line]
  | c :: text => if c = 10 then line :: linesFrom [] text else linesFrom (line ++ [c]) text

/-- `file_buffer_`. -/
structure FileBuffer where
  bytes : List UInt8
  size : bytes.length = maxSongFileBytes

def FileBuffer.terminated (buffer : FileBuffer) (length : Fin maxSongFileBytes) : FileBuffer :=
  ⟨buffer.bytes.set length 0, by rw [List.length_set, buffer.size]⟩

/-- A buffer with a text at its beginning. -/
def FileBuffer.holding (text : List UInt8) (fits : text.length ≤ maxSongFileBytes) :
    FileBuffer where
  bytes := text ++ List.replicate (maxSongFileBytes - text.length) 0
  size := by rw [List.length_append, List.length_replicate, Nat.add_sub_cancel' fits]

/-- How a song has ended, or that it goes on. A wait of `portMAX_DELAY` that nobody notifies has no
end. -/
inductive Ending
  | goesOn
  | finished
  | interrupted
  | waiting
deriving Repr, DecidableEq

structure Playback where
  fileBuffer : FileBuffer
  loopCount : UInt16 := 1
  emitted : List Tone := []
  ending : Ending := .goesOn

section Play
variable (freq : Int → ℚ) (msToTicks : UInt32 → UInt32) (notified : Nat → Bool)

/-- The tone is set and held. `notified` says of each wait, counted from the first, whether a
notification came before its time was up. -/
def Playback.hold (playback : Playback) (tone : Tone) : Playback :=
  { playback with
    emitted := playback.emitted ++ [tone]
    ending :=
      if notified playback.emitted.length then .interrupted
      else if heldFor msToTicks tone.2 = none then .waiting
      else .goesOn }

/-- The rest of the lines, in the first pass or a later one. -/
def Playback.playLines (first : Bool) : List (List UInt8) → Playback → Playback
  | [], playback => playback
  | line :: lines, playback =>
    match readLine freq line with
    | .nothing => playLines first lines playback
    | .loops count =>
      playLines first lines (if first then { playback with loopCount := count } else playback)
    | .plays tone =>
      match (playback.hold msToTicks notified tone).ending with
      | .goesOn => playLines first lines (playback.hold msToTicks notified tone)
      | _ => playback.hold msToTicks notified tone

/-- The passes from one on, each over the text that is in the buffer then. -/
def Playback.playPasses : Nat → UInt16 → Playback → Option Playback
  | 0, _, _ => none
  | fuel + 1, loop, playback =>
    if loop < playback.loopCount then
      let after := playback.playLines freq msToTicks notified (loop = 0)
        (linesFrom [] (untilNul playback.fileBuffer.bytes))
      match after.ending with
      | .goesOn => playPasses fuel (loop + 1) after
      | _ => some after
    else some { playback with ending := .finished }

def playBuffer (buffer : FileBuffer) (length : Fin maxSongFileBytes) (fuel : Nat) :
    Option Playback :=
  Playback.playPasses freq msToTicks notified fuel 0 { fileBuffer := buffer.terminated length }

end Play

-- a negative duration may come to the wait that has no end
example : (playBuffer concertPitch id (fun _ => false) (.holding (ascii "A4,-1") (by decide))
    ⟨5, by decide⟩ 101).map (·.ending) = some .waiting := by
  decide +kernel

/-! ### What a text is to sound like -/

def Effect.tone? : Effect → Option Tone
  | plays tone => some tone
  | _ => none

def Effect.count? : Effect → Option UInt16
  | loops count => some count
  | _ => none

def tones (freq : Int → ℚ) (lines : List (List UInt8)) : List Tone :=
  lines.filterMap fun line => (readLine freq line).tone?

def counts (freq : Int → ℚ) (lines : List (List UInt8)) : List UInt16 :=
  lines.filterMap fun line => (readLine freq line).count?

/-- The notes of a text, once. -/
def notes (freq : Int → ℚ) (text : List UInt8) : List Tone := tones freq (linesFrom [] text)

/-- What the last directive of a text asks for. -/
def repetitions (freq : Int → ℚ) (text : List UInt8) : UInt16 :=
  (counts freq (linesFrom [] text)).getLastD 1

/-- The notes as often as the text asks for. -/
def song (freq : Int → ℚ) (text : List UInt8) : List Tone :=
  (List.replicate (repetitions freq text).toNat (notes freq text)).flatten

/-! ### One pass -/

section Stretch
variable {freq : Int → ℚ} {msToTicks : UInt32 → UInt32} {notified : Nat → Bool}

/-- What a stretch of a song has come to: these tones were to be emitted. -/
structure Stretch (notified : Nat → Bool) (tones : List Tone) (after : Ending)
    (before playback : Playback) : Prop where
  fileBuffer : playback.fileBuffer = before.fileBuffer
  emitted : playback.emitted =
    before.emitted ++ (performed notified before.emitted.length tones).1
  ending : playback.ending =
    if (performed notified before.emitted.length tones).2 then .interrupted else after

private theorem tones_cons (line : List UInt8) (lines : List (List UInt8)) :
    tones freq (line :: lines) = (readLine freq line).tone?.toList ++ tones freq lines := by
  unfold tones
  rw [List.filterMap_cons]
  cases (readLine freq line).tone? <;> rfl

private theorem counts_cons (line : List UInt8) (lines : List (List UInt8)) :
    counts freq (line :: lines) = (readLine freq line).count?.toList ++ counts freq lines := by
  unfold counts
  rw [List.filterMap_cons]
  cases (readLine freq line).count? <;> rfl

private theorem stretch_nil {playback : Playback} (on : playback.ending = .goesOn) :
    Stretch notified [] .goesOn playback playback :=
  ⟨rfl, (List.append_nil _).symm, on⟩

/-- A note that nobody cuts short is followed by the rest of the stretch. -/
theorem stretch_hold {tone : Tone} {tones : List Tone} {after : Ending} {before playback : Playback}
    (silent : notified before.emitted.length = false)
    (rest : Stretch notified tones after (before.hold msToTicks notified tone) playback) :
    Stretch notified (tone :: tones) after before playback := by
  have longer : (before.hold msToTicks notified tone).emitted.length =
      before.emitted.length + 1 := by simp [Playback.hold]
  have here : ¬notified before.emitted.length = true := by simp [silent]
  obtain ⟨fileBuffer, emitted, ending⟩ := rest
  rw [longer] at emitted ending
  refine ⟨fileBuffer, ?_, ?_⟩
  · rw [emitted, performed, if_neg here]
    exact List.append_assoc _ [tone] _
  · rw [ending, performed, if_neg here]

private theorem stretch_interrupted {tone : Tone} {tones : List Tone} {after : Ending}
    {before : Playback}
    (heard : notified before.emitted.length = true) :
    Stretch notified (tone :: tones) after before (before.hold msToTicks notified tone) := by
  refine ⟨rfl, ?_, ?_⟩
  · rw [performed, if_pos heard]
    rfl
  · rw [performed, if_pos heard]
    exact if_pos heard

/-- The lines of one pass emit the tones of the lines, up to where it is interrupted. -/
theorem playLines_stretch (first : Bool) (lines : List (List UInt8)) {playback : Playback}
    (on : playback.ending = .goesOn)
    (ends : ∀ tone ∈ tones freq lines, heldFor msToTicks tone.2 ≠ none) :
    Stretch notified (tones freq lines) .goesOn playback
      (playback.playLines freq msToTicks notified first lines) := by
  induction lines generalizing playback with
  | nil => exact stretch_nil on
  | cons line lines ih =>
    rw [tones_cons] at ends ⊢
    unfold Playback.playLines
    generalize readLine freq line = effect at ends ⊢
    cases effect with
    | nothing => exact ih on ends
    | loops count =>
      cases first with
      | false => exact ih on ends
      | true =>
        obtain ⟨fileBuffer, emitted, ending⟩ := @ih { playback with loopCount := count } on ends
        exact ⟨fileBuffer, emitted, ending⟩
    | plays tone =>
      obtain ⟨finite, later⟩ := List.forall_mem_cons.mp ends
      cases heard : notified playback.emitted.length with
      | true =>
        have interrupted : (playback.hold msToTicks notified tone).ending = .interrupted :=
          if_pos heard
        simp only [interrupted]
        exact stretch_interrupted heard
      | false =>
        have goesOn : (playback.hold msToTicks notified tone).ending = .goesOn := by
          simp [Playback.hold, heard, finite]
        simp only [goesOn]
        exact stretch_hold heard (ih goesOn later)

/-- Unless it is interrupted, the first pass leaves the count of the last directive, and a later
one the count that there is. -/
theorem playLines_loopCount (first : Bool) (lines : List (List UInt8)) (playback : Playback)
    (on : (playback.playLines freq msToTicks notified first lines).ending = .goesOn) :
    (playback.playLines freq msToTicks notified first lines).loopCount =
      if first then (counts freq lines).getLastD playback.loopCount else playback.loopCount := by
  induction lines generalizing playback with
  | nil => cases first <;> rfl
  | cons line lines ih =>
    rw [counts_cons]
    unfold Playback.playLines at on ⊢
    generalize readLine freq line = effect at on ⊢
    cases effect with
    | nothing => exact ih playback on
    | loops count =>
      cases first with
      | false => exact ih playback on
      | true =>
        apply (ih { playback with loopCount := count } on).trans
        exact (@List.getLastD_cons _ playback.loopCount count (counts freq lines)).symm
    | plays tone =>
      cases goes : (playback.hold msToTicks notified tone).ending with
      | goesOn =>
        simp only [goes] at on ⊢
        exact ih (playback.hold msToTicks notified tone) on
      | finished | interrupted | waiting =>
        simp only [goes] at on
        cases on

/-! ### Over all passes -/

/-- A stretch that was interrupted is all of any longer one. -/
theorem stretch_stopped {first second : List Tone} {after : Ending} {before middle : Playback}
    (went : Stretch notified first .goesOn before middle) (stopped : middle.ending ≠ .goesOn) :
    Stretch notified (first ++ second) after before middle := by
  obtain ⟨fileBuffer, emitted, ending⟩ := went
  cases heard : (performed notified before.emitted.length first).2 with
  | false =>
    rw [heard] at ending
    exact absurd ending stopped
  | true =>
    have whole := @performed_append notified _ before.emitted.length first second
    rw [if_pos heard] at whole
    rw [heard] at ending
    exact ⟨fileBuffer, by rw [whole, emitted], by rw [whole, ending, heard]; rfl⟩

/-- One that was not goes on with the next. -/
theorem stretch_append {first second : List Tone} {after : Ending}
    {before middle playback : Playback} (went : Stretch notified first .goesOn before middle)
    (on : middle.ending = .goesOn) (rest : Stretch notified second after middle playback) :
    Stretch notified (first ++ second) after before playback := by
  obtain ⟨fileBuffer, emitted, ending⟩ := went
  cases heard : (performed notified before.emitted.length first).2 with
  | true =>
    rw [on, heard] at ending
    cases ending
  | false =>
    have whole := @performed_append notified _ before.emitted.length first second
    rw [performed_eq_of_unstopped heard] at emitted whole
    have length : middle.emitted.length = before.emitted.length + first.length := by
      rw [emitted, List.length_append]
    rw [← length] at whole
    refine ⟨rest.fileBuffer.trans fileBuffer, ?_, ?_⟩
    · rw [whole, rest.emitted, emitted, List.append_assoc]
      rfl
    · rw [whole, rest.ending]
      rfl

/-- One pass, and what comes after it unless it was interrupted. -/
theorem playPasses_succ {loop : UInt16} {playback : Playback} {fuel : Nat} {second : List Tone}
    {text : List UInt8} (same : untilNul playback.fileBuffer.bytes = text)
    (ends : ∀ tone ∈ notes freq text, heldFor msToTicks tone.2 ≠ none)
    (under : loop < playback.loopCount) (on : playback.ending = .goesOn)
    (rest : ∀ {middle : Playback}, middle.fileBuffer = playback.fileBuffer →
      middle.ending = .goesOn →
      middle.loopCount = (if loop = 0 then (counts freq (linesFrom [] text)).getLastD
        playback.loopCount else playback.loopCount) →
      ∃ final, middle.playPasses freq msToTicks notified fuel (loop + 1) = some final ∧
        Stretch notified second .finished middle final) :
    ∃ final, playback.playPasses freq msToTicks notified (fuel + 1) loop = some final ∧
      Stretch notified (notes freq text ++ second) .finished playback final := by
  have pass := @playLines_stretch freq msToTicks notified (loop = 0) (linesFrom [] text) _ on ends
  have count := @playLines_loopCount freq msToTicks notified (loop = 0) (linesFrom [] text) playback
  unfold Playback.playPasses
  rw [if_pos under, same]
  cases goes : (playback.playLines freq msToTicks notified (loop = 0)
      (linesFrom [] text)).ending with
  | goesOn =>
    obtain ⟨final, played, stretch⟩ := rest pass.fileBuffer goes (by simpa using count goes)
    refine ⟨final, ?_, stretch_append pass goes stretch⟩
    simp only [goes]
    exact played
  | finished | interrupted | waiting =>
    refine ⟨_, ?_, stretch_stopped pass (by rw [goes]; exact nofun)⟩
    simp only [goes]

/-- The passes that are left, each of which is the same. -/
theorem playPasses_stretch {text : List UInt8}
    (ends : ∀ tone ∈ notes freq text, heldFor msToTicks tone.2 ≠ none) (passes : Nat)
    {loop : UInt16} {playback : Playback} {fuel : Nat} (later : loop ≠ 0)
    (left : loop.toNat + passes = playback.loopCount.toNat) (enough : passes < fuel)
    (same : untilNul playback.fileBuffer.bytes = text) (on : playback.ending = .goesOn) :
    ∃ final, playback.playPasses freq msToTicks notified fuel loop = some final ∧
      Stretch notified (List.replicate passes (notes freq text)).flatten .finished playback
        final := by
  induction passes generalizing loop playback fuel with
  | zero =>
    obtain ⟨fuel, rfl⟩ := Nat.exists_eq_succ_of_ne_zero (Nat.ne_of_gt enough)
    have beyond : ¬loop < playback.loopCount := by
      rw [UInt16.lt_iff_toNat_lt]
      omega
    refine ⟨{ playback with ending := .finished }, if_neg beyond, rfl, ?_, rfl⟩
    exact (List.append_nil _).symm
  | succ passes ih =>
    obtain ⟨fuel, rfl⟩ := Nat.exists_eq_succ_of_ne_zero (Nat.ne_of_gt (Nat.zero_lt_of_lt enough))
    have under : loop < playback.loopCount := by
      rw [UInt16.lt_iff_toNat_lt]
      omega
    have next : (loop + 1).toNat = loop.toNat + 1 := by
      have := playback.loopCount.toNat_lt
      rw [UInt16.toNat_add, UInt16.toNat_one]
      omega
    have nonzero : loop + 1 ≠ 0 := by
      intro none
      rw [none] at next
      cases next
    rw [List.replicate_succ, List.flatten_cons]
    refine playPasses_succ same ends under on fun buffer goes count => ?_
    rw [if_neg later] at count
    exact ih nonzero (by rw [next, count]; omega) (by omega) (by rw [buffer, same]) goes

/-! ### A whole song -/

private theorem parseLoopLine_bounds {line : List UInt8} {count : UInt16}
    (asked : (parseLoopLine line).1 = some count) : 1 ≤ count.toNat ∧ count.toNat ≤ 100 := by
  unfold parseLoopLine at asked
  dsimp only at asked
  split at asked
  · split at asked
    · cases asked
    · rename_i sound
      cases asked
      simp only [not_or, maxSongLoops, gt_iff_lt, UInt32.lt_iff_toNat_lt, Nat.not_lt] at sound
      obtain ⟨-, -, some, few⟩ := sound
      have positive : (strtoulEnd (((withoutReturn line).dropWhile isSpaceOrTab).drop 5)).1.toNat ≠
          0 := fun none => some (UInt32.toNat_inj.mp none)
      have most : (100 : UInt32).toNat = 100 := rfl
      rw [UInt32.toNat_toUInt16]
      omega
  · cases asked

private theorem readLine_bounds {line : List UInt8} {count : UInt16}
    (asked : (readLine freq line).count? = some count) : 1 ≤ count.toNat ∧ count.toNat ≤ 100 := by
  unfold readLine at asked
  split at asked
  · cases asked
  · cases parsed : (parseLoopLine line).1 with
    | some other =>
      have whole : parseLoopLine line = (some other, (parseLoopLine line).2) := by rw [← parsed]
      rw [whole] at asked
      cases asked
      exact parseLoopLine_bounds parsed
    | none =>
      have whole : parseLoopLine line = (none, (parseLoopLine line).2) := by rw [← parsed]
      rw [whole] at asked
      dsimp only at asked
      split at asked <;> cases asked

/-- A song is repeated at least once and at most a hundred times. -/
theorem repetitions_bounds (freq : Int → ℚ) (text : List UInt8) :
    1 ≤ (repetitions freq text).toNat ∧ (repetitions freq text).toNat ≤ 100 := by
  unfold repetitions
  rw [List.getLastD_eq_getLast?]
  cases last : (counts freq (linesFrom [] text)).getLast? with
  | none => decide
  | some count =>
    obtain ⟨line, -, asked⟩ := List.mem_filterMap.mp (List.mem_of_getLast? last)
    exact readLine_bounds asked

private theorem terminated_take (buffer : FileBuffer) (length : Fin maxSongFileBytes) :
    (buffer.terminated length).bytes.take length = buffer.bytes.take length :=
  List.take_set_of_le (Nat.le_refl _)

private theorem untilNul_terminated (buffer : FileBuffer) (length : Fin maxSongFileBytes) :
    untilNul (buffer.terminated length).bytes = untilNul (buffer.bytes.take length) := by
  have within : length.val < buffer.bytes.length := Nat.lt_of_lt_of_eq length.isLt buffer.size.symm
  have split : (buffer.terminated length).bytes =
      buffer.bytes.take length ++ 0 :: buffer.bytes.drop (length + 1) :=
    List.set_eq_take_append_cons_drop.trans (if_pos within)
  rw [split]
  exact untilNul_append _ (by simp)

/-- A hundred passes and one look at the count are enough. -/
theorem playBuffer_stretch (buffer : FileBuffer) (length : Fin maxSongFileBytes)
    (ends : ∀ tone ∈ notes freq (untilNul (buffer.bytes.take length)),
      heldFor msToTicks tone.2 ≠ none) {fuel : Nat} (enough : 101 ≤ fuel) :
    ∃ final, playBuffer freq msToTicks notified buffer length fuel = some final ∧
      Stretch notified (song freq (untilNul (buffer.bytes.take length))) .finished
        { fileBuffer := buffer.terminated length } final := by
  have ⟨once, most⟩ := repetitions_bounds freq (untilNul (buffer.bytes.take length))
  obtain ⟨fuel, rfl⟩ := Nat.exists_eq_succ_of_ne_zero (Nat.ne_of_gt (Nat.zero_lt_of_lt enough))
  obtain ⟨passes, more⟩ := Nat.exists_eq_succ_of_ne_zero (Nat.ne_of_gt once)
  have begun : (0 : UInt16) < 1 := by decide
  rw [song, more, List.replicate_succ, List.flatten_cons]
  refine playPasses_succ (untilNul_terminated buffer length) ends begun rfl
    fun same goes count => ?_
  have asked : _ = repetitions freq (untilNul (buffer.bytes.take length)) :=
    count.trans (if_pos rfl)
  refine playPasses_stretch ends passes (by decide) ?_ (by omega) ?_ goes
  · rw [asked, more]
    exact Nat.add_comm 1 passes
  · rw [same]
    exact untilNul_terminated buffer length

/-- What playing a buffer comes to: the song of its text, unless a notification cuts a note
short. -/
structure Replayed (freq : Int → ℚ) (notified : Nat → Bool) (buffer : FileBuffer)
    (length : Fin maxSongFileBytes) (text : List UInt8) (final : Playback) : Prop where
  buffer : final.fileBuffer.bytes.take length = buffer.bytes.take length
  whole : (∀ index < (song freq text).length, notified index = false) →
    final.emitted = song freq text ∧ final.ending = .finished
  cut : ∀ index < (song freq text).length, (∀ earlier < index, notified earlier = false) →
    notified index = true →
    final.emitted = (song freq text).take (index + 1) ∧ final.ending = .interrupted

/-- Whatever is in the buffer and whenever notifications come: with passes enough for a hundred
repetitions, playing ends, has emitted the notes as often as the text asks for, or up to the note
that was cut short, and has changed no byte of the text. -/
theorem playBuffer_replays (freq : Int → ℚ) (msToTicks : UInt32 → UInt32) (notified : Nat → Bool)
    (buffer : FileBuffer) (length : Fin maxSongFileBytes)
    (ends : ∀ tone ∈ notes freq (untilNul (buffer.bytes.take length)),
      heldFor msToTicks tone.2 ≠ none) (fuel : Nat) (enough : 101 ≤ fuel) :
    ∃ final, playBuffer freq msToTicks notified buffer length fuel = some final ∧
      Replayed freq notified buffer length (untilNul (buffer.bytes.take length)) final := by
  obtain ⟨final, played, fileBuffer, emitted, ending⟩ :=
    @playBuffer_stretch freq msToTicks notified buffer length ends fuel enough
  have empty : ({ fileBuffer := buffer.terminated length } : Playback).emitted = [] := rfl
  rw [empty, List.nil_append] at emitted
  rw [empty] at ending
  refine ⟨final, played, ?_, ?_, ?_⟩
  · rw [fileBuffer]
    exact terminated_take buffer length
  · intro quiet
    have all := @performed_of_quiet notified _ 0 (song freq (untilNul (buffer.bytes.take length)))
      fun later _ within => quiet later (by omega)
    rw [List.length_nil, all] at emitted ending
    exact ⟨emitted, ending⟩
  · intro index within quiet heard
    have some := @performed_of_first notified _ 0 _ index within
      (fun earlier before => by rw [Nat.zero_add]; exact quiet earlier before)
      (by rwa [Nat.zero_add])
    rw [List.length_nil, some] at emitted ending
    exact ⟨emitted, ending⟩

end Stretch

def twice : FileBuffer := .holding (ascii "A4,250\nLOOP,2\n") (by decide)

theorem twice_replays : ∃ final,
    playBuffer concertPitch id (fun _ => false) twice ⟨14, by decide⟩ 101 = some final ∧
      Replayed concertPitch (fun _ => false) twice ⟨14, by decide⟩
        (untilNul (twice.bytes.take 14)) final := by
  have sung : notes concertPitch (untilNul (twice.bytes.take 14)) = [(440, 250)] := by
    decide +kernel
  refine playBuffer_replays concertPitch id (fun _ => false) twice ⟨14, by decide⟩ ?_ 101
    (Nat.le_refl _)
  intro tone member
  rw [sung, List.mem_singleton] at member
  rw [member]
  decide

/-- A line of nothing but a NUL, and a note behind it. -/
def silenced : FileBuffer := .holding (0 :: 10 :: ascii "A4,250\n") (by decide)

/-- The text ends with its first NUL, and so does the song. -/
theorem nul_silences : ¬∀ (freq : Int → ℚ) (msToTicks : UInt32 → UInt32) (notified : Nat → Bool)
    (buffer : FileBuffer) (length : Fin maxSongFileBytes), (∀ index, notified index = false) →
    ∃ fuel final, playBuffer freq msToTicks notified buffer length fuel = some final ∧
      final.emitted = song freq (buffer.bytes.take length) := by
  intro replays
  obtain ⟨fuel, final, played, emitted⟩ :=
    replays concertPitch id (fun _ => false) silenced ⟨9, by decide⟩ fun _ => rfl
  have sung : song concertPitch (silenced.bytes.take 9) = [(440, 250)] := by decide +kernel
  have text : untilNul (silenced.terminated ⟨9, by decide⟩).bytes = [] := by decide +kernel
  have nothing : final.emitted = [] := by
    match fuel with
    | 0 => cases played
    | 1 =>
      simp [playBuffer, Playback.playPasses, text, linesFrom, Playback.playLines] at played
    | fuel + 2 =>
      simp only [playBuffer, Playback.playPasses, text, linesFrom] at played
      cases played
      rfl
  rw [nothing, sung] at emitted
  cases emitted

end BallyOS.Junkebox
