import Mathlib.Algebra.Order.Ring.Rat
import Mathlib.Tactic.Linarith
import BallyOS.Library.Integers

/-! The note lines of a song: a note, a comma and how many milliseconds it lasts. What the pitch
formula makes of a note number and how the scheduler counts milliseconds are parameters. -/
namespace BallyOS.Junkebox
open Library

/-- How far a note is above the C below it, by its capital letter. -/
def semitoneFromC (letter : UInt8) : Int32 :=
  [9, 11, 0, 2, 4, 5, 7].getD (letter.toNat - 65) 0

def isRest (token : List UInt8) : Bool :=
  sameLetters token (ascii "REST") || sameLetters token (ascii "PAUSE")

/-- The accidental that is behind the letter, and the text behind the accidental. A `B` is a flat
only before a digit. -/
def accidentalOf (text : List UInt8) : Int32 × List UInt8 :=
  if text.head? = some 35 then (1, text.drop 1)
  else if toUpperByte (text.headD 0) = 66 ∧ isDecimalDigit ((text.drop 1).headD 0) = true then
    (-1, text.drop 1)
  else (0, text)

/-- The window of the pitches that are played. -/
def Audible (pitch : ℚ) : Prop := ¬(pitch < 20 ∨ pitch > 20000)

instance (pitch : ℚ) : Decidable (Audible pitch) := inferInstanceAs (Decidable (¬_))

/-- The computation of the note number wraps where it does not fit. -/
def noteTokenToFreq (freq : Int → ℚ) (token : List UInt8) : Option UInt16 :=
  if isRest token then some 0
  else
    let letter := toUpperByte (token.headD 0)
    if letter < 65 ∨ letter > 71 then none
    else
      let (accidental, text) := accidentalOf (token.drop 1)
      if isDecimalDigit (text.headD 0) = true then
        let midi := (atoi text + 1) * 12 + semitoneFromC letter + accidental
        if Audible (freq midi.toInt) then
          some (UInt16.ofNat (freq midi.toInt + 1 / 2).floor.toNat)
        else none
      else none

/-- A NUL takes the place of a carriage return at the end. -/
def withoutReturn (line : List UInt8) : List UInt8 :=
  let text := untilNul line
  if text.getLast? = some 13 then text.dropLast else text

/-- The text of a line without the carriage return at its end and the blanks before it. -/
def stripped (line : List UInt8) : List UInt8 := (withoutReturn line).dropWhile isSpaceOrTab

def parseNoteLine (freq : Int → ℚ) (line : List UInt8) : Option (UInt16 × UInt32) :=
  let text := stripped line
  if text.head? = none ∨ text.head? = some 35 then none
  else
    (splitAtFirst 44 text).bind fun (token, number) =>
      (noteTokenToFreq freq token).bind fun freqHz =>
        let durationMs := (atoi number).toUInt32
        if durationMs > 0 then some (freqHz, durationMs) else none

/-! ### What a line says -/

/-- A letter, perhaps an accidental, and an octave. -/
structure Note where
  letter : UInt8
  accidental : Option UInt8
  octave : List UInt8
  isLetter : ¬(toUpperByte letter < 65 ∨ toUpperByte letter > 71)
  isAccidental : ∀ sign ∈ accidental, sign = 35 ∨ toUpperByte sign = 66
  nonempty : octave ≠ []
  digits : ∀ c ∈ octave, isDecimalDigit c = true

def Note.text (note : Note) : List UInt8 :=
  note.letter :: (note.accidental.toList ++ note.octave)

def Note.alteration (note : Note) : Int32 :=
  if note.accidental = none then 0 else if note.accidental = some 35 then 1 else -1

/-- The note number, twelve to the octave. -/
def Note.number (note : Note) : Int :=
  12 * ((decimalValue note.octave : Int) + 1) +
    (semitoneFromC (toUpperByte note.letter)).toInt + note.alteration.toInt

/-- The number that the code computes for it. -/
def Note.midi (note : Note) : Int32 :=
  (atoi note.octave + 1) * 12 + semitoneFromC (toUpperByte note.letter) + note.alteration

/-- A token and the tone that it stands for. -/
def Sounds (freq : Int → ℚ) (token : List UInt8) (freqHz : UInt16) : Prop :=
  isRest token = true ∧ freqHz = 0 ∨
    ∃ note : Note, token = note.text ∧ Audible (freq note.number) ∧
      (freqHz.toNat : Int) = (freq note.number + 1 / 2).floor

/-- How long the player holds a note, in ticks of a millisecond: without end when the wait comes to
`portMAX_DELAY`. -/
def heldFor (msToTicks : UInt32 → UInt32) (durationMs : UInt32) : Option Nat :=
  if msToTicks durationMs = 0xFFFFFFFF then none else some (msToTicks durationMs).toNat

/-- A line is accepted only as a note, a comma and a number, for that tone and that long. -/
def MeansWhatItSays (freq : Int → ℚ) (msToTicks : UInt32 → UInt32) (line : List UInt8) : Prop :=
  ∀ freqHz durationMs, parseNoteLine freq line = some (freqHz, durationMs) →
    ∃ token number, stripped line = token ++ 44 :: number ∧ Sounds freq token freqHz ∧
      SaysDecimal number durationMs ∧ 0 < durationMs ∧
      ∃ ticks, heldFor msToTicks durationMs = some ticks ∧ ticks ≤ durationMs.toNat

/-- A token that is played, whatever is behind its note: the note may be audible only as the number
that the computation wraps to. -/
def Played (freq : Int → ℚ) (token : List UInt8) : Prop :=
  isRest token = true ∨ ∃ (note : Note) (rest : List UInt8), token = note.text ++ rest ∧
    (∀ c ∈ rest.head?, isDecimalDigit c = false) ∧ Audible (freq note.midi.toInt)

/-- Nothing is behind the note, and its number fits. -/
def WholeToken (token : List UInt8) : Prop :=
  isRest token = true ∨ ∃ note : Note, token = note.text ∧ note.number < 2147483648

/-- There is nothing but digits, and their value fits. -/
structure WholeNumber (number : List UInt8) : Prop where
  nonempty : number ≠ []
  digits : ∀ c ∈ number, isDecimalDigit c = true
  fits : decimalValue number < 2147483648

/-- Where the token is played and the number is not zero, both are whole. -/
def Whole (freq : Int → ℚ) (line : List UInt8) : Prop :=
  ∀ token number, splitAtFirst 44 (stripped line) = some (token, number) →
    Played freq token → atoi number ≠ 0 → WholeToken token ∧ WholeNumber number

/-! ### Tokens -/

private theorem Note.digit_head (note : Note) (rest : List UInt8) :
    ∃ c, (note.octave ++ rest).head? = some c ∧ isDecimalDigit c = true := by
  obtain ⟨c, digits, shape⟩ := List.exists_cons_of_ne_nil note.nonempty
  refine ⟨c, by rw [shape]; rfl, note.digits c ?_⟩
  rw [shape]
  exact List.mem_cons_self

private theorem toUpperByte_of_digit {c : UInt8} (digit : isDecimalDigit c = true) : toUpperByte c =
    c := by
  have ⟨low, high⟩ := digit_bounds digit
  refine if_neg fun ⟨letter, _⟩ => ?_
  have : 97 ≤ c.toNat := UInt8.le_iff_toNat_le.mp letter
  omega

/-- The accidental of a note is found whatever is behind the note. -/
theorem accidentalOf_note (note : Note) (rest : List UInt8) :
    accidentalOf (note.accidental.toList ++ (note.octave ++ rest)) =
      (note.alteration, note.octave ++ rest) := by
  obtain ⟨c, head, digit⟩ := note.digit_head rest
  obtain ⟨tail, shape⟩ : ∃ tail, note.octave ++ rest = c :: tail := List.head?_eq_some_iff.mp head
  rw [shape]
  unfold accidentalOf Note.alteration
  cases found : note.accidental with
  | none =>
    have sharp : c ≠ 35 := ne_of_digit digit (by decide)
    have flat : toUpperByte c ≠ 66 := by
      rw [toUpperByte_of_digit digit]
      rintro rfl
      exact absurd digit (by decide)
    simp [sharp, flat]
  | some sign =>
    rcases note.isAccidental sign found with rfl | flat
    · rfl
    · have sharp : sign ≠ 35 := by
        rintro rfl
        exact absurd flat (by decide)
      simp [sharp, flat, digit]

/-- A rest does not begin with the letter of a note. -/
theorem isRest_head {token : List UInt8} (rest : isRest token = true) :
    ∃ c, token.head? = some c ∧ (toUpperByte c = 82 ∨ toUpperByte c = 80) := by
  simp only [isRest, sameLetters, Bool.or_eq_true, decide_eq_true_eq] at rest
  cases token with
  | nil => exact absurd rest (by decide)
  | cons c token =>
    refine ⟨c, rfl, ?_⟩
    rcases rest with same | same
    · exact Or.inl (List.cons.inj same).1
    · exact Or.inr (List.cons.inj same).1

private theorem isRest_note (note : Note) (rest : List UInt8) : isRest (note.text ++ rest) = false
    := by
  rw [Bool.eq_false_iff]
  intro rested
  obtain ⟨c, head, letter⟩ := isRest_head rested
  cases head
  refine note.isLetter (Or.inr ?_)
  rcases letter with same | same
  · rw [same]
    decide
  · rw [same]
    decide

private theorem atoi_octave (note : Note) {rest : List UInt8}
    (ends : ∀ c ∈ rest.head?, isDecimalDigit c = false) :
    (atoi (note.octave ++ rest)).toInt = min 2147483647 (decimalValue note.octave : Int) :=
  toInt_atoi_digits note.nonempty note.digits ends

/-- A note is read from the beginning of a token, and what is behind it is not looked at. -/
theorem noteTokenToFreq_text (freq : Int → ℚ) (note : Note) {rest : List UInt8}
    (ends : ∀ c ∈ rest.head?, isDecimalDigit c = false) :
    noteTokenToFreq freq (note.text ++ rest) =
      if Audible (freq note.midi.toInt) then
        some (UInt16.ofNat (freq note.midi.toInt + 1 / 2).floor.toNat)
      else none := by
  obtain ⟨c, head, digit⟩ := note.digit_head rest
  have number : atoi (note.octave ++ rest) = atoi note.octave := by
    have alone := @atoi_octave note [] (by simp)
    rw [List.append_nil] at alone
    exact Int32.toInt_inj.mp ((atoi_octave note ends).trans alone.symm)
  have same : (atoi (note.octave ++ rest) + 1) * 12 +
      semitoneFromC (toUpperByte note.letter) + note.alteration = note.midi := by
    rw [number, Note.midi]
  have behind : (note.text ++ rest).drop 1 =
      note.accidental.toList ++ (note.octave ++ rest) := by
    simp [Note.text]
  have first : (note.text ++ rest).headD 0 = note.letter := rfl
  have start : isDecimalDigit ((note.octave ++ rest).headD 0) = true := by
    rw [List.headD_eq_head?_getD, head]
    exact digit
  simp only [noteTokenToFreq, isRest_note, behind, accidentalOf_note, first, if_neg note.isLetter,
    start, same, Bool.false_eq_true, if_true, if_false]

private theorem accidentalOf_split (text : List UInt8) :
    ∃ accidental : Option UInt8, text = accidental.toList ++ (accidentalOf text).2 ∧
      ∀ sign ∈ accidental, sign = 35 ∨ toUpperByte sign = 66 := by
  unfold accidentalOf
  split
  · rename_i sharp
    obtain ⟨rest, rfl⟩ := List.head?_eq_some_iff.mp sharp
    exact ⟨some 35, rfl, by simp⟩
  · split
    · rename_i flat
      cases text with
      | nil => exact absurd flat.1 (by decide)
      | cons sign rest => exact ⟨some sign, rfl, by simpa using Or.inr flat.1⟩
    · exact ⟨none, rfl, by simp⟩

/-- What is read as a note begins with one. -/
theorem noteTokenToFreq_eq_some {freq : Int → ℚ} {token : List UInt8} {freqHz : UInt16}
    (tuned : noteTokenToFreq freq token = some freqHz) : isRest token = true ∧ freqHz = 0 ∨
      ∃ (note : Note) (rest : List UInt8), token = note.text ++ rest ∧
        ∀ c ∈ rest.head?, isDecimalDigit c = false := by
  unfold noteTokenToFreq at tuned
  split at tuned
  · rename_i rest
    cases tuned
    exact Or.inl ⟨rest, rfl⟩
  · dsimp only at tuned
    split at tuned
    · cases tuned
    · rename_i letter
      split at tuned
      · rename_i digit
        apply Or.inr
        cases token with
        | nil => exact absurd (Or.inl (by decide)) letter
        | cons c text =>
          obtain ⟨accidental, whole, signs⟩ := accidentalOf_split text
          obtain ⟨octave, rest, split, nonempty, digits, ends⟩ := digits_split digit
          refine ⟨⟨c, accidental, octave, letter, signs, nonempty, digits⟩, rest, ?_, ends⟩
          have behind : text = accidental.toList ++ (octave ++ rest) :=
            whole.trans (congrArg _ split)
          rw [Note.text, behind, List.cons_append, List.append_assoc]
      · cases tuned

/-! ### Note numbers -/

private theorem semitoneFromC_bounds (note : Note) :
    0 ≤ (semitoneFromC (toUpperByte note.letter)).toInt ∧
      (semitoneFromC (toUpperByte note.letter)).toInt ≤ 11 := by
  have table : ∀ index < 7, 0 ≤ (([9, 11, 0, 2, 4, 5, 7] : List Int32).getD index 0).toInt ∧
      (([9, 11, 0, 2, 4, 5, 7] : List Int32).getD index 0).toInt ≤ 11 := by decide
  obtain ⟨low, high⟩ := not_or.mp note.isLetter
  have below : (toUpperByte note.letter).toNat ≤ 71 := UInt8.not_lt.mp high
  exact table _ (by omega)

private theorem alteration_bounds (note : Note) :
    -1 ≤ note.alteration.toInt ∧ note.alteration.toInt ≤ 1 := by
  unfold Note.alteration
  split
  · decide
  · split <;> decide

/-- The computation of a note number is exact where the number fits. -/
theorem toInt_midi {note : Note} (fits : note.number < 2147483648) :
    note.midi.toInt = note.number := by
  have ⟨semitone, highest⟩ := semitoneFromC_bounds note
  have ⟨flat, sharp⟩ := alteration_bounds note
  have octave := @atoi_octave note [] (by simp)
  rw [List.append_nil] at octave
  have one : (1 : Int32).toInt = 1 := rfl
  have twelve : (12 : Int32).toInt = 12 := rfl
  unfold Note.number at fits ⊢
  have exact : (atoi note.octave).toInt = decimalValue note.octave := by omega
  have above : (atoi note.octave + 1).toInt = decimalValue note.octave + 1 := by
    rw [Int32.toInt_add, exact, one]
    exact Int.bmod_eq_of_le (by omega) (by omega)
  have scaled : ((atoi note.octave + 1) * 12).toInt = (decimalValue note.octave + 1) * 12 := by
    rw [Int32.toInt_mul, above, twelve]
    exact Int.bmod_eq_of_le (by omega) (by omega)
  -- the sum with the semitone may wrap where a flat brings it back
  rw [Note.midi, Int32.toInt_add, Int32.toInt_add, Int.bmod_add_bmod, scaled, Int.mul_comm]
  exact Int.bmod_eq_of_le (by omega) (by omega)

/-- A pitch in the window is rounded to a frequency that fits. -/
theorem toNat_rounded {pitch : ℚ} (audible : Audible pitch) :
    ((UInt16.ofNat (pitch + 1 / 2).floor.toNat).toNat : Int) = (pitch + 1 / 2).floor := by
  obtain ⟨low, high⟩ := not_or.mp audible
  have least : (0 : Int) ≤ (pitch + 1 / 2).floor := by
    rw [Rat.le_floor_iff]
    push_cast
    linarith
  have most : (pitch + 1 / 2).floor < 20001 := by
    rw [Rat.floor_lt_iff]
    push_cast
    linarith
  rw [UInt16.toNat_ofNat']
  omega

/-! ### What is accepted -/

private theorem played_iff {freq : Int → ℚ} {token : List UInt8} :
    Played freq token ↔ ∃ freqHz, noteTokenToFreq freq token = some freqHz := by
  constructor
  · rintro (rest | ⟨note, rest, rfl, ends, audible⟩)
    · exact ⟨0, if_pos rest⟩
    · exact ⟨_, (noteTokenToFreq_text freq note ends).trans (if_pos audible)⟩
  · rintro ⟨freqHz, tuned⟩
    rcases noteTokenToFreq_eq_some tuned with ⟨rest, -⟩ | ⟨note, rest, rfl, ends⟩
    · exact Or.inl rest
    · rw [noteTokenToFreq_text freq note ends] at tuned
      obtain ⟨audible, -⟩ := Option.ite_none_right_eq_some.mp tuned
      exact Or.inr ⟨note, rest, rfl, ends, audible⟩

/-- Neither an empty token nor a comment is played. -/
theorem played_head {freq : Int → ℚ} {token : List UInt8} (played : Played freq token) :
    ¬(token.head? = none ∨ token.head? = some 35) := by
  rcases played with rest | ⟨note, rest, rfl, -⟩
  · obtain ⟨c, head, letter⟩ := isRest_head rest
    rw [head]
    rintro (none | comment)
    · cases none
    · cases comment
      exact absurd letter (by decide)
  · rintro (none | comment)
    · cases none
    · have letter := note.isLetter
      rw [Option.some.inj comment] at letter
      exact absurd (by decide) letter

private theorem parseNoteLine_eq_some {freq : Int → ℚ} {line : List UInt8} {freqHz : UInt16}
    {durationMs : UInt32} : parseNoteLine freq line = some (freqHz, durationMs) ↔
      ∃ token number, splitAtFirst 44 (stripped line) = some (token, number) ∧
        noteTokenToFreq freq token = some freqHz ∧ atoi number ≠ 0 ∧
        (atoi number).toUInt32 = durationMs := by
  have positive : ∀ number, (atoi number).toUInt32 > 0 ↔ atoi number ≠ 0 := fun number => by
    rw [gt_iff_lt, UInt32.pos_iff_ne_zero]
    exact toUInt32_eq_zero_iff.not
  unfold parseNoteLine
  dsimp only
  constructor
  · intro parsed
    obtain ⟨-, parted⟩ := Option.ite_none_left_eq_some.mp parsed
    obtain ⟨⟨token, number⟩, split, tuned⟩ := Option.bind_eq_some_iff.mp parted
    obtain ⟨heard, tone, lasting⟩ := Option.bind_eq_some_iff.mp tuned
    obtain ⟨more, same⟩ := Option.ite_none_right_eq_some.mp lasting
    cases same
    exact ⟨token, number, split, tone, (positive number).mp more, rfl⟩
  · rintro ⟨token, number, split, tone, more, rfl⟩
    have begins : (stripped line).head? = token.head? := by
      have played := played_head (played_iff.mpr ⟨freqHz, tone⟩)
      cases token with
      | nil => exact absurd (Or.inl rfl) played
      | cons c token =>
        rw [(splitAtFirst_eq_some.mp split).1]
        rfl
    rw [begins, if_neg (played_head (played_iff.mpr ⟨freqHz, tone⟩)), split]
    simp only [Option.bind_some, tone, if_pos ((positive number).mpr more)]

private theorem sounds_of_whole {freq : Int → ℚ} {token : List UInt8} {freqHz : UInt16}
    (tone : noteTokenToFreq freq token = some freqHz) (whole : WholeToken token) :
    Sounds freq token freqHz := by
  rcases whole with rest | ⟨note, rfl, fits⟩
  · refine Or.inl ⟨rest, ?_⟩
    unfold noteTokenToFreq at tone
    rw [if_pos rest] at tone
    exact (Option.some.inj tone).symm
  · have alone := @noteTokenToFreq_text freq note [] (by simp)
    rw [List.append_nil, tone, toInt_midi fits] at alone
    obtain ⟨audible, same⟩ := Option.ite_none_right_eq_some.mp alone.symm
    refine Or.inr ⟨note, rfl, audible, ?_⟩
    rw [← Option.some.inj same]
    exact toNat_rounded audible

private theorem whole_of_sounds {freq : Int → ℚ}
    (rising : ∀ lower higher, lower < higher → freq lower < freq higher)
    (top : 20000 < freq 2147483647) {token : List UInt8} {freqHz : UInt16}
    (sounds : Sounds freq token freqHz) : WholeToken token := by
  rcases sounds with ⟨rest, -⟩ | ⟨note, same, audible, -⟩
  · exact Or.inl rest
  · refine Or.inr ⟨note, same, ?_⟩
    obtain ⟨-, high⟩ := not_or.mp audible
    refine Int.not_le.mp fun beyond => high ?_
    exact top.trans (rising _ _ (Int.lt_of_lt_of_le (by decide) beyond))

/-- A number of nothing but digits is taken as it is exactly when it fits. -/
theorem saysDecimal_atoi_iff {number : List UInt8} :
    SaysDecimal number (atoi number).toUInt32 ↔ WholeNumber number := by
  constructor
  · rintro ⟨nonempty, digits, value⟩
    rw [toNat_atoi_digits nonempty digits] at value
    exact ⟨nonempty, digits, by omega⟩
  · rintro ⟨nonempty, digits, fits⟩
    refine ⟨nonempty, digits, ?_⟩
    rw [toNat_atoi_digits nonempty digits]
    omega

/-- There is no comma in a token, so that the first comma of a line is the one behind it. -/
theorem comma_not_mem {token : List UInt8} (whole : WholeToken token) : (44 : UInt8) ∉ token := by
  intro member
  rcases whole with rest | ⟨note, rfl, -⟩
  · have upper : (44 : UInt8) ∈ token.map toUpperByte :=
      List.mem_map.mpr ⟨44, member, by decide⟩
    simp only [isRest, sameLetters, Bool.or_eq_true, decide_eq_true_eq] at rest
    rcases rest with same | same
    · exact absurd (same ▸ upper) (by decide)
    · exact absurd (same ▸ upper) (by decide)
  · rcases List.mem_cons.mp member with letter | behind
    · have range := note.isLetter
      rw [← letter] at range
      exact range (by decide)
    · rcases List.mem_append.mp behind with sign | digit
      · have signs := note.isAccidental 44 (Option.mem_toList.mp sign)
        exact absurd signs (by decide)
      · exact absurd (note.digits 44 digit) (by decide)

/-- A note is not held longer than the number that it was written with. -/
theorem heldFor_of_whole {msToTicks : UInt32 → UInt32} {number : List UInt8}
    (rounds : ∀ ms, (msToTicks ms).toNat ≤ ms.toNat) (whole : WholeNumber number) :
    ∃ ticks, heldFor msToTicks (atoi number).toUInt32 = some ticks ∧
      ticks ≤ (atoi number).toUInt32.toNat := by
  have decimal := saysDecimal_atoi_iff.mpr whole
  have fits := whole.fits
  rw [decimal.value] at fits
  have less := rounds (atoi number).toUInt32
  refine ⟨_, if_neg fun endless => ?_, less⟩
  rw [endless] at less
  have most : (0xFFFFFFFF : UInt32).toNat = 4294967295 := rfl
  omega

/-- Whatever the pitches and whatever the line: it means what it says exactly when nothing is
behind the octave or around the number, and both numbers fit, or it is not played at all. -/
theorem means_iff_whole (freq : Int → ℚ) (msToTicks : UInt32 → UInt32)
    (rising : ∀ lower higher, lower < higher → freq lower < freq higher)
    (top : 20000 < freq 2147483647) (rounds : ∀ ms, (msToTicks ms).toNat ≤ ms.toNat)
    (line : List UInt8) : MeansWhatItSays freq msToTicks line ↔ Whole freq line := by
  constructor
  · intro means token number split played more
    obtain ⟨freqHz, tone⟩ := played_iff.mp played
    obtain ⟨written, counted, same, sounds, decimal, -⟩ := means freqHz _
      (parseNoteLine_eq_some.mpr ⟨token, number, split, tone, more, rfl⟩)
    have whole := whole_of_sounds rising top sounds
    cases split.symm.trans (splitAtFirst_eq_some.mpr ⟨same, comma_not_mem whole⟩)
    exact ⟨whole, saysDecimal_atoi_iff.mp decimal⟩
  · intro whole freqHz durationMs parsed
    obtain ⟨token, number, split, tone, more, rfl⟩ := parseNoteLine_eq_some.mp parsed
    obtain ⟨wholeToken, wholeNumber⟩ :=
      whole token number split (played_iff.mpr ⟨freqHz, tone⟩) more
    exact ⟨token, number, (splitAtFirst_eq_some.mp split).1, sounds_of_whole tone wholeToken,
      saysDecimal_atoi_iff.mpr wholeNumber,
      UInt32.pos_iff_ne_zero.mpr (toUInt32_eq_zero_iff.not.mpr more),
      heldFor_of_whole rounds wholeNumber⟩

/-- Pitches of which the A above middle C is in tune. -/
def concertPitch (midi : Int) : ℚ := 440 + 26 * (midi - 69)

private theorem concertPitch_rising (lower higher : Int) (less : lower < higher) :
    concertPitch lower < concertPitch higher := by
  unfold concertPitch
  have cast : (lower : ℚ) < higher := by exact_mod_cast less
  linarith

private theorem concertPitch_top : 20000 < concertPitch 2147483647 := by norm_num [concertPitch]

def concertA : Note :=
  ⟨65, none, [52], by decide, nofun, by decide, List.all_eq_true.mp (by decide)⟩

theorem quarter_means : Whole concertPitch (ascii "A4,250") ∧
    MeansWhatItSays concertPitch id (ascii "A4,250") := by
  have whole : Whole concertPitch (ascii "A4,250") := by
    intro token number split _ _
    have parted : splitAtFirst 44 (stripped (ascii "A4,250")) =
        some (ascii "A4", ascii "250") := by decide
    cases split.symm.trans parted
    exact ⟨Or.inr ⟨concertA, by decide, by decide⟩, by decide, List.all_eq_true.mp (by decide),
      by decide⟩
  exact ⟨whole, (means_iff_whole concertPitch id concertPitch_rising concertPitch_top
    (fun _ => Nat.le_refl _) _).mpr whole⟩

/-- A negative duration is a very long one. -/
theorem negative_lasts : ¬∀ (freq : Int → ℚ) (msToTicks : UInt32 → UInt32),
    (∀ lower higher, lower < higher → freq lower < freq higher) → 20000 < freq 2147483647 →
    (∀ ms, (msToTicks ms).toNat ≤ ms.toNat) →
    ∀ line, MeansWhatItSays freq msToTicks line := by
  intro means
  have played : parseNoteLine concertPitch (ascii "A4,-5") = some (440, 4294967291) := by
    decide +kernel
  obtain ⟨token, number, same, sounds, decimal, -⟩ := means concertPitch id
    concertPitch_rising concertPitch_top (fun _ => Nat.le_refl _) (ascii "A4,-5") _ _ played
  have whole := whole_of_sounds concertPitch_rising concertPitch_top sounds
  have split := splitAtFirst_eq_some.mpr ⟨same, comma_not_mem whole⟩
  have parted : splitAtFirst 44 (stripped (ascii "A4,-5")) = some (ascii "A4", ascii "-5") := by
    decide
  cases split.symm.trans parted
  exact absurd (decimal.digits 45 (by decide)) (by decide)

end BallyOS.Junkebox
