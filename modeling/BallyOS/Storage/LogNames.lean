import Mathlib.Data.Fintype.Pigeonhole
import BallyOS.Storage.Card

/-! The names of log files. A new one says the local time and a counter; the
counter starts over at every boot, so names that are already on the card are
passed over. The latest one is the last in the order of their bytes. -/
namespace BallyOS.Storage
open Library

/-- What `localtime_r` gives, with the year and the month as they are printed. -/
structure LocalTime where
  year : UInt32
  month : UInt32
  day : UInt32
  hour : UInt32
  minute : UInt32
  second : UInt32
deriving DecidableEq

/-- `%0<width>lu`. -/
def printPadded (width value : Nat) : Path :=
  List.replicate (width - (printDecimal value).length) 48 ++ printDecimal value

/-- `kLogFilenameCapacity`. -/
def kLogFilenameCapacity : Nat := 128

def datePart (time : LocalTime) : Path :=
  ascii "log_" ++ printPadded 4 time.year.toNat ++ ascii "-" ++ printPadded 2 time.month.toNat ++
    ascii "-" ++ printPadded 2 time.day.toNat ++ ascii "_" ++ printPadded 2 time.hour.toNat ++
    ascii "-" ++ printPadded 2 time.minute.toNat ++ ascii "-" ++
    printPadded 2 time.second.toNat ++ ascii "_"

def logName (time : LocalTime) (candidate : UInt32) : Path :=
  datePart time ++ printPadded 6 candidate.toNat ++ ascii ".blog"

section Names

variable {Key : Type} [DecidableEq Key] {names : Path → Key} (mountPoint : Path)

/-- The loop of `make_log_filename`: the counter goes up until a name is free.
It has no bound in the source. -/
def searchName (card : Card names) (time : LocalTime) (capacity : Nat) :
    Nat → UInt32 → Option (Path × UInt32)
  | 0, _ => none
  | tries + 1, counter =>
    let candidate := counter + 1
    let name := logName time candidate
    if name.length < capacity ∧ card.fileExists mountPoint name = false then
      some (name, candidate)
    else searchName card time capacity tries candidate

/-- `make_log_filename`, with the counter it leaves. A first name that does not
fit is given up; later ones are tried for as long as it takes. -/
def makeLogFilename (card : Card names) (time : LocalTime) (capacity tries : Nat)
    (counter : UInt32) : Option (Option Path × UInt32) :=
  if capacity = 0 then some (none, counter)
  else
    let candidate := counter + 1
    let name := logName time candidate
    if capacity ≤ name.length then some (none, candidate)
    else if card.fileExists mountPoint name = false then some (some name, candidate)
    else (searchName mountPoint card time capacity tries candidate).map
      fun (name, counter) => (some name, counter)

def isLogName (name : Path) : Bool :=
  10 ≤ name.length ∧ name.take 4 = ascii "log_" ∧ name.drop (name.length - 5) = ascii ".blog"

/-- The loop of `find_latest_log_file` over the listed names; `none` when a
name does not fit the buffer. -/
def latestOf (capacity : Nat) : List Path → Path → Option Path
  | [], filename => some filename
  | name :: rest, filename =>
    if isLogName name && (filename = [] || decide (filename < name)) then
      if name.length < capacity then latestOf capacity rest name else none
    else latestOf capacity rest filename

def findLatestLogFile (card : Card names) (capacity : Nat) : Option Path :=
  if capacity = 0 then none
  else
    let infos := (List.range (card.getFileCount mountPoint)).filterMap fun index =>
      card.getFileInfo mountPoint (UInt16.ofNat index)
    (latestOf capacity (infos.map FileInfo.name) []).filter fun filename => filename ≠ []

end Names

/-! ### Names tell counters apart -/

private theorem decimalValue_replicate (count : Nat) (digits : Path) :
    decimalValue (List.replicate count 48 ++ digits) = decimalValue digits := by
  induction count with
  | zero => rfl
  | succ count ih =>
    rw [List.replicate_succ, List.cons_append, decimalValue, List.foldl_cons]
    exact ih

private theorem printPadded_value (width : Nat) (value : UInt32) :
    decimalValue (printPadded width value.toNat) = value.toNat := by
  rw [printPadded, decimalValue_replicate]
  exact (saysDecimal_print value).value

private theorem printPadded_length {width : Nat} (value : UInt32) (narrow : width ≤ 10) :
    (printPadded width value.toNat).length ≤ 10 := by
  have := printDecimal_length value
  simp only [printPadded, List.length_append, List.length_replicate]
  omega

private theorem logName_injective (time : LocalTime) : Function.Injective (logName time) := by
  intro one two same
  rw [logName, logName] at same
  have digits := List.append_cancel_left (List.append_cancel_right same)
  rw [← UInt32.toNat_inj, ← printPadded_value 6 one, digits, printPadded_value]

/-- A log name is never cut by its buffer. -/
theorem logName_length (time : LocalTime) (candidate : UInt32) :
    (logName time candidate).length < kLogFilenameCapacity := by
  have year := printPadded_length time.year (show 4 ≤ 10 by decide)
  have month := printPadded_length time.month (show 2 ≤ 10 by decide)
  have day := printPadded_length time.day (show 2 ≤ 10 by decide)
  have hour := printPadded_length time.hour (show 2 ≤ 10 by decide)
  have minute := printPadded_length time.minute (show 2 ≤ 10 by decide)
  have second := printPadded_length time.second (show 2 ≤ 10 by decide)
  have counter := printPadded_length candidate (show 6 ≤ 10 by decide)
  have log : (ascii "log_").length = 4 := rfl
  have dash : (ascii "-").length = 1 := rfl
  have under : (ascii "_").length = 1 := rfl
  have blog : (ascii ".blog").length = 5 := rfl
  simp only [logName, datePart, List.length_append, kLogFilenameCapacity, log, dash, under, blog]
  omega

private theorem logName_ne_nil (time : LocalTime) (candidate : UInt32) : logName time candidate ≠ []
    := by
  simp [logName, datePart, ascii]

section Fresh

variable {Key : Type} [DecidableEq Key] {names : Path → Key} {mountPoint : Path}
  {card : Card names} {time : LocalTime} {capacity tries : Nat} {counter : UInt32}

private theorem searchName_spec
    (found : searchName mountPoint card time capacity tries counter = some (name, last)) :
    name = logName time last ∧ card.fileExists mountPoint name = false := by
  induction tries generalizing counter with
  | zero => cases found
  | succ tries ih =>
    simp only [searchName] at found
    split at found
    · rename_i free
      cases found
      exact ⟨rfl, free.2⟩
    · exact ih found

theorem makeLogFilename_spec
    (found : makeLogFilename mountPoint card time capacity tries counter =
      some (some name, last)) :
    name = logName time last ∧ card.fileExists mountPoint name = false := by
  simp only [makeLogFilename] at found
  split at found
  · cases found
  split at found
  · cases found
  split at found
  · cases found
    exact ⟨rfl, ‹_›⟩
  · obtain ⟨⟨later, next⟩, searched, same⟩ := Option.map_eq_some_iff.mp found
    cases same
    exact searchName_spec searched

/-- A search that came to nothing met a file at every try. -/
theorem searchName_none
    (none : searchName mountPoint card time kLogFilenameCapacity tries counter = none) :
    ∀ index < tries, card.fileExists mountPoint
      (logName time (counter + 1 + UInt32.ofNat index)) = true := by
  induction tries generalizing counter with
  | zero => exact fun index less => absurd less (Nat.not_lt_zero index)
  | succ tries ih =>
    simp only [searchName] at none
    split at none
    · cases none
    rename_i taken
    intro index less
    cases index with
    | zero =>
      have exists' : ¬card.fileExists mountPoint (logName time (counter + 1)) = false :=
        fun free => taken ⟨logName_length time _, free⟩
      simpa using exists'
    | succ index =>
      have next := ih none index (Nat.lt_of_succ_lt_succ less)
      rwa [UInt32.ofNat_add, UInt32.add_comm (UInt32.ofNat index), ← UInt32.add_assoc]

/-- How the file system reads paths, as far as log names go: the card is
mounted where their paths fit, and different ones are different files. -/
structure Mountable (names : Path → Key) (mountPoint : Path) : Prop where
  short : mountPoint.length + 1 + kLogFilenameCapacity ≤ maxPathLength
  apart : ∀ time one two, names (mountPoint ++ slash :: logName time one) =
    names (mountPoint ++ slash :: logName time two) → logName time one = logName time two
  absolute : mountPoint.head? = some slash

omit [DecidableEq Key] in
private theorem makePath_logName (mountable : Mountable names mountPoint)
    (mounted : card.mounted = true)
    (time : LocalTime) (candidate : UInt32) :
    card.makePath mountPoint (logName time candidate) =
      some (mountPoint ++ slash :: logName time candidate) := by
  have head : (logName time candidate).head? = some 108 := by
    simp [logName, datePart, ascii]
  have outside : ¬(logName time candidate).take mountPoint.length = mountPoint := by
    intro same
    obtain ⟨rest, split⟩ := List.head?_eq_some_iff.mp mountable.absolute
    obtain ⟨more, named⟩ := List.head?_eq_some_iff.mp head
    rw [split, named, List.length_cons, List.take_succ_cons] at same
    have first := (List.cons.inj same).1
    simp [slash] at first
  have relative : ¬(logName time candidate).head? = some slash := by
    rw [head]
    decide
  have short := mountable.short
  have small := logName_length time candidate
  have fits : (mountPoint ++ slash :: logName time candidate).length < maxPathLength := by
    simp only [List.length_append, List.length_cons]
    omega
  simp only [Card.makePath, mounted, Bool.not_true, Bool.false_or, decide_eq_true_eq,
    if_neg (logName_ne_nil time candidate), outside, false_and, if_false, if_neg relative,
    if_pos fits]

private theorem fileExists_logName (mountable : Mountable names mountPoint)
    (mounted : card.mounted = true)
    (time : LocalTime) (candidate : UInt32) :
    card.fileExists mountPoint (logName time candidate) =
      (card.volume.read (mountPoint ++ slash :: logName time candidate)).isSome := by
  rw [Card.fileExists, makePath_logName mountable mounted]

/-- Among one more name than there are files, one is free. -/
theorem searchName_finds (mountable : Mountable names mountPoint) (mounted : card.mounted = true)
    (enough : card.volume.files.length < tries) (few : card.volume.files.length < 2 ^ 32)
    (time : LocalTime) (counter : UInt32) :
    ∃ name last, searchName mountPoint card time kLogFilenameCapacity tries counter =
      some (name, last) := by
  cases searched : searchName mountPoint card time kLogFilenameCapacity tries counter with
  | some found => exact ⟨found.1, found.2, rfl⟩
  | none =>
    exfalso
    have taken : ∀ index : Fin (card.volume.files.length + 1), ∃ file ∈ card.volume.files,
        names file.1 = names (mountPoint ++ slash ::
          logName time (counter + 1 + UInt32.ofNat index)) := by
      intro index
      have present := searchName_none searched index (by omega)
      rw [fileExists_logName mountable mounted] at present
      obtain ⟨data, read⟩ := Option.isSome_iff_exists.mp present
      obtain ⟨file, member, same, _⟩ := Volume.read_eq_some.mp read
      exact ⟨file, member, same⟩
    choose file member same using taken
    -- Fewer files than names: two of the names mean one file.
    obtain ⟨one, two, apart, met⟩ := Fintype.exists_ne_map_eq_of_card_lt
      (fun index => (⟨(card.volume.files.idxOf (file index)),
        List.idxOf_lt_length_of_mem (member index)⟩ : Fin card.volume.files.length))
      (by simp)
    have one_file : file one = file two := by
      have position : card.volume.files.idxOf (file one) = card.volume.files.idxOf (file two) :=
        congrArg Fin.val met
      exact (List.idxOf_inj (member one)).mp position
    have equal := logName_injective time (mountable.apart time _ _
      ((same one).symm.trans (one_file ▸ same two)))
    have offsets := (UInt32.add_right_inj _).mp equal
    rw [← UInt32.toNat_inj, UInt32.toNat_ofNat', UInt32.toNat_ofNat', Nat.mod_eq_of_lt (by omega),
      Nat.mod_eq_of_lt (by omega)] at offsets
    exact apart (Fin.ext offsets)

private theorem searchName_more
    (found : searchName mountPoint card time capacity tries counter = some result)
    (more : tries ≤ enough) :
    searchName mountPoint card time capacity enough counter = some result := by
  induction tries generalizing counter enough with
  | zero => cases found
  | succ tries ih =>
    obtain ⟨enough, rfl⟩ : ∃ less, enough = less + 1 := ⟨enough - 1, by omega⟩
    simp only [searchName] at found ⊢
    split at found
    · rename_i free
      rw [if_pos free]
      exact found
    · rename_i taken
      rw [if_neg taken]
      exact ih found (Nat.le_of_succ_le_succ more)

/-- The search for a new log name has no bound in the source, and needs none:
with fewer than `2 ^ 32` files it ends, however far the counter has come, with a
name that fits its buffer and is on no file. -/
theorem new_log_name_is_found (mountable : Mountable names mountPoint)
    (mounted : card.mounted = true) (few : card.volume.files.length < 2 ^ 32)
    (time : LocalTime) (counter : UInt32) :
    ∃ last, (logName time last).length < kLogFilenameCapacity ∧
      card.volume.read (mountPoint ++ slash :: logName time last) = none ∧
      ∀ tries, card.volume.files.length < tries →
        makeLogFilename mountPoint card time kLogFilenameCapacity tries counter =
          some (some (logName time last), last) := by
  have fits : ∀ candidate, ¬kLogFilenameCapacity ≤ (logName time candidate).length :=
    fun candidate => Nat.not_le_of_lt (logName_length time candidate)
  have absent : ∀ candidate, card.fileExists mountPoint (logName time candidate) = false →
      card.volume.read (mountPoint ++ slash :: logName time candidate) = none := by
    intro candidate free
    rw [fileExists_logName mountable mounted] at free
    simpa using free
  by_cases free : card.fileExists mountPoint (logName time (counter + 1)) = false
  · refine ⟨counter + 1, logName_length time _, absent _ free, fun tries _ => ?_⟩
    simp only [makeLogFilename]
    rw [if_neg (by decide), if_neg (fits _), if_pos free]
  · obtain ⟨name, last, found⟩ := searchName_finds mountable mounted
      (Nat.lt_succ_self card.volume.files.length) few time (counter + 1)
    obtain ⟨rfl, unused⟩ := searchName_spec found
    refine ⟨last, logName_length time last, absent last unused, fun tries enough => ?_⟩
    simp only [makeLogFilename]
    rw [if_neg (by decide), if_neg (fits _), if_neg free, searchName_more found enough]
    rfl

end Fresh

/-- Where the card is mounted. -/
def sdMount : Path := ascii "/sdcard"

def emptyCard : Card (id : Path → Path) := ⟨true, Volume.empty, none⟩

def bootTime : LocalTime := ⟨1970, 1, 1, 0, 0, 9⟩

private theorem sdMount_mountable : Mountable (id : Path → Path) sdMount where
  short := by decide
  apart := fun _ _ _ same => (List.cons.inj (List.append_cancel_left same)).2
  absolute := rfl

/-- A card with the logs of an earlier boot, which began in the same second. -/
def logCard : Card (id : Path → Path) where
  mounted := true
  volume := {
    files := [(sdMount ++ slash :: logName bootTime 0, ascii "zero"),
      (sdMount ++ slash :: logName bootTime 1, ascii "one")]
    apart := by decide }
  stream := none

/-- The counter wraps, and both names after that are taken. -/
theorem new_log_name_is_found_after_wrap : ∃ last, last ≠ 0 ∧ last ≠ 1 ∧
    (logName bootTime last).length < kLogFilenameCapacity ∧
      logCard.volume.read (sdMount ++ slash :: logName bootTime last) = none ∧
      ∀ tries, 2 < tries →
        makeLogFilename sdMount logCard bootTime kLogFilenameCapacity tries 0xFFFFFFFF =
          some (some (logName bootTime last), last) := by
  have few : logCard.volume.files.length < 2 ^ 32 := by decide
  obtain ⟨last, fits, absent, found⟩ :=
    new_log_name_is_found sdMount_mountable rfl few bootTime 0xFFFFFFFF
  have zero : logCard.volume.read (sdMount ++ slash :: logName bootTime 0) ≠ none := by decide
  have one : logCard.volume.read (sdMount ++ slash :: logName bootTime 1) ≠ none := by decide
  exact ⟨last, fun same => zero (same ▸ absent), fun same => one (same ▸ absent), fits, absent,
    found⟩

end BallyOS.Storage
