import BallyOS.Library.ByteText
import BallyOS.Library.Volume

/-! The SD card as the robot's code uses it: paths below a mount point, files
listed by index, and one open stream. Which file a path means (`names`) is the
FAT driver's affair. What a call of the driver comes to is an argument: whether
it succeeded, how many bytes it took, and how much of what was written is on the
card when closing failed or the power went. A file that is being written keeps
its old directory entry until it is closed. -/
namespace BallyOS.Storage
open Library

abbrev Path := List UInt8

def slash : UInt8 := 47

/-- `MAX_PATH_LENGTH`, the room for a path with its terminator. -/
def maxPathLength : Nat := 256

/-- `SDFileInfo::MAX_NAME_LENGTH`. -/
def maxNameLength : Nat := 128

/-- `stream_` with `stream_writable_`. A stream being written remembers what
its file held when it was opened and what the library took since; one being
read has some bytes left, of which an error of the card hides all but the first. -/
inductive Stream
  | writing (path : Path) (base written : List UInt8)
  | reading (left : List UInt8) (readable : Nat) (failed : Bool)
deriving DecidableEq

structure Card {Key : Type} (names : Path → Key) where
  mounted : Bool
  volume : Volume (List UInt8) names
  stream : Option Stream

/-- `SDFileInfo`. -/
structure FileInfo where
  name : Path
  size : Nat
deriving DecidableEq

namespace Card

variable {Key : Type} [DecidableEq Key] {names : Path → Key} (mountPoint : Path)

/-- "/sdcard/log.bin", "/log.bin" and "log.bin" mean one file. -/
def makePath (card : Card names) (path : Path) : Option Path :=
  if !card.mounted || path = [] then none
  else
    let full :=
      if path.take mountPoint.length = mountPoint ∧
          (path.drop mountPoint.length).head?.getD slash = slash then path
      else if path.head? = some slash then mountPoint ++ path
      else mountPoint ++ slash :: path
    if full.length < maxPathLength then some full else none

def fileExists (card : Card names) (path : Path) : Bool :=
  match makePath mountPoint card path with
  | none => false
  | some full => (card.volume.read full).isSome

/-- The name under which a file is listed at the root of the card. -/
def rootName (path : Path) : Option Path :=
  let name := path.drop (mountPoint.length + 1)
  if path.take (mountPoint.length + 1) = mountPoint ++ [slash] ∧ name ≠ [] ∧ slash ∉ name then
    some name
  else none

/-- What walking the directory finds, entry by entry. -/
def listing (card : Card names) : List FileInfo :=
  card.volume.files.filterMap fun file =>
    if file.1.length < maxPathLength then
      (rootName mountPoint file.1).map fun name => ⟨name, file.2.length⟩
    else none

def getFileCount (card : Card names) : Nat :=
  if card.mounted then min (listing mountPoint card).length 0xFFFF else 0

def getFileInfo (card : Card names) (index : UInt16) : Option FileInfo :=
  if card.mounted then
    (listing mountPoint card)[index.toNat]?.filter fun info => info.name.length < maxNameLength
  else none

def removeFile (card : Card names) (path : Path) (answer : Bool) : Bool × Card names :=
  match makePath mountPoint card path with
  | none => (false, card)
  | some full =>
    if answer && (card.volume.read full).isSome then
      (true, { card with volume := card.volume.remove full })
    else (false, card)

/-- The driver refuses to rename a file onto another. -/
def renameFile (card : Card names) (currentPath newPath : Path) (position : Nat) (answer : Bool) :
    Bool × Card names :=
  match makePath mountPoint card currentPath, makePath mountPoint card newPath with
  | some current, some new =>
    match card.volume.read current, card.volume.read new with
    | some data, none =>
      if answer then
        (true, { card with volume := (card.volume.remove current).write new data position })
      else (false, card)
    | _, _ => (false, card)
  | _, _ => (false, card)

/-- `write_file` replaces what the file held; `kept` bytes of the new content
are there when it fails. -/
def writeFile (card : Card names) (path : Path) (data : List UInt8) (position : Nat)
    (opened : Bool) (kept : Option Nat) : Bool × Card names :=
  match makePath mountPoint card path with
  | none => (false, card)
  | some full =>
    if opened then
      match kept with
      | none => (true, { card with volume := card.volume.write full data position })
      | some kept =>
        (false, { card with volume := card.volume.write full (data.take kept) position })
    else (false, card)

/-! ### The sequential stream -/

def openWriteStream (card : Card names) (path : Path) (append : Bool) (position : Nat)
    (opened : Bool) : Bool × Card names :=
  if card.stream.isSome then (false, card)
  else match makePath mountPoint card path with
    | none => (false, card)
    | some full =>
      if opened then
        let base := if append then (card.volume.read full).getD [] else []
        (true, { card with
          volume := card.volume.write full base position
          stream := some (.writing full base []) })
      else (false, card)

def openReadStream (card : Card names) (path : Path) (opened : Bool) (readable : Nat) :
    Bool × Card names :=
  if card.stream.isSome then (false, card)
  else match makePath mountPoint card path with
    | none => (false, card)
    | some full =>
      match card.volume.read full with
      | none => (false, card)
      | some data =>
        if opened then (true, { card with stream := some (.reading data readable false) })
        else (false, card)

def writeStream (card : Card names) (data : List UInt8) (accepted : Nat) : Bool × Card names :=
  match card.stream with
  | some (.writing path base written) =>
    (data.length ≤ accepted,
      { card with stream := some (.writing path base (written ++ data.take accepted)) })
  | _ => (false, card)

/-- `fread`: what there is up to the capacity, and an error where the card
gives out first. -/
def Stream.take (left : List UInt8) (readable : Nat) (failed : Bool) (capacity : Nat) :
    List UInt8 × Stream :=
  let count := min capacity readable
  (left.take count, .reading (left.drop count) (readable - count)
    (failed || (readable < capacity && readable < left.length)))

def readStream (card : Card names) (capacity : Nat) : List UInt8 × Card names :=
  match card.stream with
  | some (.reading left readable failed) =>
    let (bytes, stream) := Stream.take left readable failed capacity
    (bytes, { card with stream := some stream })
  | _ => ([], card)

def streamHasError (card : Card names) : Bool :=
  match card.stream with
  | some (.reading _ _ failed) => failed
  | _ => false

/-- Closing puts what was written into the file. When it fails, only the first
`kept` bytes of that are there. -/
def closeStream (card : Card names) (closed : Bool) (kept : Nat) : Bool × Card names :=
  match card.stream with
  | none => (true, card)
  | some (.reading ..) => (closed, { card with stream := none })
  | some (.writing path base written) =>
    let data := base ++ if closed then written else written.take kept
    (closed, { card with volume := card.volume.update path data, stream := none })

/-! ### What the operations leave alone -/

variable {mountPoint} {card : Card names}

/-- The file being written still reads as it did when it was opened. -/
def Held (card : Card names) : Prop :=
  ∀ path base written, card.stream = some (.writing path base written) →
    card.volume.read path = some base

/-- What a path reads is still there, with more behind it at most. -/
def KeepsFile (path : Path) (before after : Card names) : Prop :=
  ∀ data, before.volume.read path = some data →
    ∃ later, after.volume.read path = some later ∧ data <+: later

theorem keepsFile_of_eq {before after : Card names}
    (same : after.volume.read path = before.volume.read path) : KeepsFile path before after :=
  fun data found => ⟨data, same.trans found, List.prefix_rfl⟩

theorem KeepsFile.trans {first second third : Card names} (one : KeepsFile path first second)
    (two : KeepsFile path second third) : KeepsFile path first third := by
  intro data found
  obtain ⟨middle, kept, longer⟩ := one data found
  obtain ⟨later, held, more⟩ := two middle kept
  exact ⟨later, held, longer.trans more⟩

variable (mountPoint) in
theorem openWriteStream_cases (card : Card names) (path : Path) (append : Bool) (position : Nat)
    (opened : Bool) :
    openWriteStream mountPoint card path append position opened = (false, card) ∨
      card.stream = none ∧ ∃ full, makePath mountPoint card path = some full ∧
        ∃ base, base = (if append then (card.volume.read full).getD [] else []) ∧
          openWriteStream mountPoint card path append position opened =
            (true, { card with
              volume := card.volume.write full base position
              stream := some (.writing full base []) }) := by
  unfold openWriteStream
  split
  · exact .inl rfl
  rename_i free
  split
  · exact .inl rfl
  rename_i full made
  split
  · exact .inr ⟨by simpa using free, full, made, _, rfl, rfl⟩
  · exact .inl rfl

/-- Only the file that a given path means was removed or rewritten. -/
structure ChangesOnly (meant : Option Path) (before after : Card names) : Prop where
  stream : after.stream = before.stream
  others : ∀ path, (∀ full, meant = some full → names full ≠ names path) →
    after.volume.read path = before.volume.read path

private theorem changesOnly_refl (meant : Option Path) (card : Card names) : ChangesOnly meant card
    card :=
  ⟨rfl, fun _ _ => rfl⟩

variable (mountPoint) in
theorem removeFile_changesOnly (card : Card names) (path : Path) (answer : Bool) :
    ChangesOnly (makePath mountPoint card path) card
      (card.removeFile mountPoint path answer).2 := by
  unfold removeFile
  split
  · exact changesOnly_refl _ card
  rename_i full made
  split
  · exact ⟨rfl, fun other apart => Volume.read_remove_other (apart full made).symm⟩
  · exact changesOnly_refl _ card

variable (mountPoint) in
theorem writeFile_changesOnly (card : Card names) (path : Path) (data : List UInt8)
    (position : Nat) (opened : Bool) (kept : Option Nat) :
    ChangesOnly (makePath mountPoint card path) card
      (card.writeFile mountPoint path data position opened kept).2 := by
  unfold writeFile
  split
  · exact changesOnly_refl _ card
  rename_i full made
  split
  · split <;> exact ⟨rfl, fun other apart => Volume.read_write_other (apart full made).symm⟩
  · exact changesOnly_refl _ card

variable (mountPoint) in
/-- A file is renamed to a name that was nobody's, or nothing happens. -/
theorem renameFile_cases (card : Card names) (currentPath newPath : Path) (position : Nat)
    (answer : Bool) :
    (card.renameFile mountPoint currentPath newPath position answer).2 = card ∨
      ∃ current new data, makePath mountPoint card currentPath = some current ∧
        makePath mountPoint card newPath = some new ∧ card.volume.read new = none ∧
        (card.renameFile mountPoint currentPath newPath position answer).2 =
          { card with volume := (card.volume.remove current).write new data position } := by
  unfold renameFile
  split
  · rename_i current new madeCurrent madeNew
    split
    · rename_i data _ absent
      split
      · exact .inr ⟨current, new, data, madeCurrent, madeNew, absent, rfl⟩
      · exact .inl rfl
    · exact .inl rfl
  · exact .inl rfl

variable (mountPoint) in
theorem renameFile_present (card : Card names) (currentPath newPath : Path) (position : Nat)
    (answer : Bool)
    (apart : ∀ full, makePath mountPoint card currentPath = some full → names full ≠ names path)
    (found : card.volume.read path = some data) :
    (card.renameFile mountPoint currentPath newPath position answer).2.volume.read path =
      some data := by
  rcases card.renameFile_cases mountPoint currentPath newPath position answer with
    same | ⟨current, new, _, made, _, absent, renamed⟩
  · rw [same, found]
  · have elsewhere : names path ≠ names new := by
      intro same
      rw [Volume.read_congr same, absent] at found
      cases found
    rw [renamed]
    exact (Volume.read_write_other elsewhere).trans
      ((Volume.read_remove_other (apart current made).symm).trans found)

variable (mountPoint) in
theorem renameFile_stream (card : Card names) (currentPath newPath : Path) (position : Nat)
    (answer : Bool) :
    (card.renameFile mountPoint currentPath newPath position answer).2.stream = card.stream := by
  rcases card.renameFile_cases mountPoint currentPath newPath position answer with
    same | ⟨_, _, _, _, _, _, renamed⟩
  · rw [same]
  · rw [renamed]

/-- A closed stream is gone; what it wrote extends its file. -/
theorem closeStream_spec (held : Held card) (closed : Bool) (kept : Nat) :
    (card.closeStream closed kept).2.stream = none ∧
      (card.closeStream closed kept).2.mounted = card.mounted ∧
      ∀ path, KeepsFile path card (card.closeStream closed kept).2 := by
  unfold closeStream
  split
  · exact ⟨‹_›, rfl, fun path => keepsFile_of_eq rfl⟩
  · exact ⟨rfl, rfl, fun path => keepsFile_of_eq rfl⟩
  · rename_i target base written open'
    refine ⟨rfl, rfl, fun path data found => ?_⟩
    have before := held target base written open'
    by_cases same : names path = names target
    · have whole : data = base := by
        rw [Volume.read_congr same, before] at found
        exact (Option.some.inj found).symm
      refine ⟨_, (Volume.read_congr same).trans (Volume.read_update_self before), ?_⟩
      exact whole ▸ List.prefix_append _ _
    · exact ⟨data, (Volume.read_update_other same).trans found, List.prefix_rfl⟩

/-- A listed name leads back to the file it was listed for. -/
theorem getFileInfo_spec (absolute : mountPoint.head? = some slash)
    (found : card.getFileInfo mountPoint index = some info) :
    ∃ path data, card.makePath mountPoint info.name = some path ∧
      card.volume.read path = some data ∧ info.size = data.length := by
  unfold getFileInfo at found
  split at found
  · rename_i mounted
    obtain ⟨here, _⟩ := Option.filter_eq_some_iff.mp found
    obtain ⟨⟨path, data⟩, member, listed⟩ := List.mem_filterMap.mp (List.mem_of_getElem? here)
    split at listed
    · rename_i short
      obtain ⟨name, rooted, rfl⟩ := Option.map_eq_some_iff.mp listed
      refine ⟨path, data, ?_, Volume.read_eq_some.mpr ⟨(path, data), member, rfl, rfl⟩, rfl⟩
      simp only [rootName] at rooted
      split at rooted
      · rename_i root
        cases rooted
        obtain ⟨front, nonempty, flat⟩ := root
        have whole : path = mountPoint ++ slash :: path.drop (mountPoint.length + 1) := by
          conv_lhs => rw [← List.take_append_drop (mountPoint.length + 1) path, front]
          simp
        generalize path.drop (mountPoint.length + 1) = name at whole nonempty flat
        subst whole
        have relative : name.head? ≠ some slash := by
          exact fun leads => flat (List.mem_of_mem_head? leads)
        have outside : ¬name.take mountPoint.length = mountPoint := by
          intro same
          obtain ⟨rest, split⟩ := List.head?_eq_some_iff.mp absolute
          cases name with
          | nil => exact nonempty rfl
          | cons first more =>
            rw [split, List.length_cons, List.take_succ_cons] at same
            exact relative (congrArg Option.some (List.cons.inj same).1)
        simp only [makePath, mounted, Bool.not_true, Bool.false_or, decide_eq_true_eq,
          if_neg nonempty,
          outside, false_and, if_false]
        rw [if_neg relative]
        exact if_pos short
      · cases rooted
    · cases listed
  · cases found

end Card

end BallyOS.Storage
