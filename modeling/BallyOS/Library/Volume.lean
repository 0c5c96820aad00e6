import Mathlib.Data.List.Nodup

/-! The regular files of a volume, in the order their directory lists them. A
path means a file through `names`, which stands for the file system's own
normal form of a path; no two files have one meaning, and that is a field. -/
namespace BallyOS.Library

structure Volume {Path Key : Type} (Data : Type) (names : Path → Key) where
  files : List (Path × Data)
  apart : (files.map fun file => names file.1).Nodup

namespace Volume

variable {Path Key Data : Type} [DecidableEq Key] {names : Path → Key}

def empty : Volume Data names := ⟨[], by simp⟩

def read (volume : Volume Data names) (path : Path) : Option Data :=
  (volume.files.find? fun file => names file.1 = names path).map Prod.snd

/-- What a file holds is replaced; a path that means no file changes nothing. -/
def update (volume : Volume Data names) (path : Path) (data : Data) : Volume Data names where
  files := volume.files.map fun file => if names file.1 = names path then (file.1, data) else file
  apart := by
    have same : (fun file : Path × Data => names file.1) ∘
        (fun file => if names file.1 = names path then (file.1, data) else file) =
          fun file => names file.1 := by
      funext file
      simp only [Function.comp_apply]
      split <;> rfl
    rw [List.map_map, same]
    exact volume.apart

private theorem read_eq_none {volume : Volume Data names} :
    volume.read path = none ↔ ∀ file ∈ volume.files, names file.1 ≠ names path := by
  simp [read]

theorem read_eq_some {volume : Volume Data names} :
    volume.read path = some data ↔
      ∃ file ∈ volume.files, names file.1 = names path ∧ file.2 = data := by
  constructor
  · intro found
    obtain ⟨file, first, rfl⟩ := Option.map_eq_some_iff.mp found
    exact ⟨file, List.mem_of_find?_eq_some first, by simpa using List.find?_some first, rfl⟩
  · rintro ⟨file, member, same, rfl⟩
    cases first : volume.files.find? fun file => names file.1 = names path with
    | none => exact absurd same (by simpa using List.find?_eq_none.mp first file member)
    | some other =>
      have meant : names other.1 = names path := by simpa using List.find?_some first
      have one : other = file :=
        List.inj_on_of_nodup_map volume.apart (List.mem_of_find?_eq_some first) member
          (meant.trans same.symm)
      rw [read, first, one, Option.map_some]

/-- Two paths that mean one file read the same. -/
theorem read_congr {volume : Volume Data names} (same : names path = names other) :
    volume.read path = volume.read other := by
  simp only [read, same]

/-- A new file enters the directory wherever there is room; an existing one
keeps its place and its spelling. -/
def write (volume : Volume Data names) (path : Path) (data : Data) (position : Nat) :
    Volume Data names :=
  if absent : volume.read path = none then
    { files := volume.files.take position ++ (path, data) :: volume.files.drop position
      apart := by
        have old := volume.apart
        rw [← List.take_append_drop position volume.files, List.map_append] at old
        rw [List.map_append, List.map_cons, List.nodup_middle, List.nodup_cons, ← List.map_append,
          List.take_append_drop]
        refine ⟨?_, volume.apart⟩
        intro member
        obtain ⟨file, here, same⟩ := List.mem_map.mp member
        exact read_eq_none.mp absent file here same }
  else volume.update path data

def remove (volume : Volume Data names) (path : Path) : Volume Data names where
  files := volume.files.filter fun file => names file.1 ≠ names path
  apart := volume.apart.sublist (List.filter_sublist.map _)

theorem read_update_self {volume : Volume Data names} (found : volume.read path = some old) :
    (volume.update path data).read path = some data := by
  obtain ⟨file, member, same, _⟩ := read_eq_some.mp found
  refine read_eq_some.mpr ⟨(file.1, data), List.mem_map.mpr ⟨file, member, ?_⟩, same, rfl⟩
  rw [if_pos same]

theorem read_update_other {volume : Volume Data names} (other : names path ≠ names target) :
    (volume.update target data).read path = volume.read path := by
  have same : ∀ found, (volume.update target data).read path = some found ↔
      volume.read path = some found := by
    intro found
    simp only [read_eq_some, update, List.mem_map]
    constructor
    · rintro ⟨_, ⟨file, member, rfl⟩, meant, held⟩
      split at meant
      · rename_i here
        exact absurd (meant.symm.trans here) other
      · rename_i elsewhere
        rw [if_neg elsewhere] at held
        exact ⟨file, member, meant, held⟩
    · rintro ⟨file, member, meant, held⟩
      have elsewhere : ¬names file.1 = names target := fun here => other (meant.symm.trans here)
      exact ⟨file, ⟨file, member, if_neg elsewhere⟩, meant, held⟩
  exact Option.ext same

@[simp] theorem read_write_self (volume : Volume Data names) (path : Path) (data : Data)
    (position : Nat) : (volume.write path data position).read path = some data := by
  unfold write
  split
  · exact read_eq_some.mpr ⟨(path, data), by simp, rfl, rfl⟩
  · rename_i present
    obtain ⟨old, found⟩ := Option.ne_none_iff_exists'.mp present
    exact read_update_self found

theorem read_write_other {volume : Volume Data names} (other : names path ≠ names target) :
    (volume.write target data position).read path = volume.read path := by
  unfold write
  split
  · refine Option.ext fun found => ?_
    have split : ∀ file, file ∈ volume.files.take position ++
        (target, data) :: volume.files.drop position ↔ file = (target, data) ∨
          file ∈ volume.files := by
      intro file
      rw [← List.mem_cons]
      have moved : (volume.files.take position ++ (target, data) :: volume.files.drop position).Perm
          ((target, data) :: (volume.files.take position ++ volume.files.drop position)) :=
        List.perm_middle
      rw [moved.mem_iff, List.take_append_drop]
    simp only [read_eq_some, split]
    constructor
    · rintro ⟨file, rfl | member, meant, held⟩
      · exact absurd meant.symm other
      · exact ⟨file, member, meant, held⟩
    · rintro ⟨file, member, meant, held⟩
      exact ⟨file, .inr member, meant, held⟩
  · exact read_update_other other

theorem read_remove_other {volume : Volume Data names} (other : names path ≠ names target) :
    (volume.remove target).read path = volume.read path := by
  refine Option.ext fun found => ?_
  simp only [read_eq_some, remove, List.mem_filter, decide_eq_true_eq]
  constructor
  · rintro ⟨file, ⟨member, _⟩, meant, held⟩
    exact ⟨file, member, meant, held⟩
  · rintro ⟨file, member, meant, held⟩
    exact ⟨file, ⟨member, fun here => other (meant.symm.trans here)⟩, meant, held⟩

@[simp] theorem read_remove_self (volume : Volume Data names) (path : Path) :
    (volume.remove path).read path = none := by
  rw [read_eq_none]
  intro file member
  simpa using (List.mem_filter.mp member).2

@[simp] theorem read_empty (path : Path) : (empty : Volume Data names).read path = none := rfl

end Volume

end BallyOS.Library
