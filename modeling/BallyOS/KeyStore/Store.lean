import BallyOS.KeyStore.Provision

/-! The key store over its loads and unloads. -/
namespace BallyOS.KeyStore
open Library

structure Store where
  contents : Contents := {}
  loaded : Bool := false
  lastError : Error := .ok

namespace Store
variable (crc32 : List UInt8 → UInt32)

def unload (store : Store) : Store := { store with contents := {}, loaded := false }

def load (store : Store) (data : Option (List UInt8)) : Bool × Store :=
  let (error, parsed) := parse crc32 data (some {})
  if error ≠ .ok then (false, { store.unload with lastError := error })
  else (true, { contents := parsed.getD {}, loaded := true, lastError := .ok })

/-- One byte more than the format is read, so that a longer file shows. -/
def loadFromCard (store : Store) (mounted : Bool) (file : Option (List UInt8)) :
    Bool × Store :=
  if mounted = false then (false, { store.unload with lastError := .file })
  else
    match file with
    | none => (false, { store.unload with lastError := .file })
    | some data => store.load crc32 (some (data.take (kFileSize + 1)))

def keyE (store : Store) : Option (Bytes kKeyLength) :=
  if store.loaded then some store.contents.keyE else none

def keyL (store : Store) : Option (Bytes kKeyLength) :=
  if store.loaded then some store.contents.keyL else none

end Store

/-- The calls, with what the card reads. -/
inductive Event
  | load (data : Option (List UInt8))
  | loadFromCard (mounted : Bool) (file : Option (List UInt8))
  | unload

section
variable (crc32 : List UInt8 → UInt32)

def step (store : Store) : Event → Store
  | .load data => (store.load crc32 data).2
  | .loadFromCard mounted file => (store.loadFromCard crc32 mounted file).2
  | .unload => store.unload

def after (events : List Event) : Store := events.foldl (step crc32) {}

/-- Whether a call reports that it loaded. -/
def reports (store : Store) : Event → Bool
  | .load data => (store.load crc32 data).1
  | .loadFromCard mounted file => (store.loadFromCard crc32 mounted file).1
  | .unload => false

/-- The image that a call gives the store. -/
def Event.image : Event → Option (List UInt8)
  | .load data => data
  | .loadFromCard true file => file.map (List.take (kFileSize + 1))
  | _ => none

/-- A call that loads. -/
def Loads (event : Event) : Prop :=
  ∃ image ∈ event.image, ∀ field ∈ fields, Valid crc32 image field

private theorem parse_ok_iff (data : Option (List UInt8)) (out : Option Contents) :
    (parse crc32 data out).1 = .ok ↔
      ∃ image ∈ data, ∀ field ∈ fields, Valid crc32 image field := by
  cases data with
  | none => simp [parse]
  | some data =>
    simp only [parse, check_eq_iff, Option.mem_some_iff, exists_eq_left']
    simp [FirstInvalid, fields]

private theorem parse_first_invalid (data : Option (List UInt8)) (out : Option Contents)
    (error : Error) : (parse crc32 data out).1 = error ↔
      FirstInvalid (Valid crc32 (data.getD [])) fields error := by
  cases data with
  | none =>
    rw [Option.getD_none, ← check_eq_iff]
    rfl
  | some data => exact check_eq_iff crc32 data error

private theorem parse_kept (data : Option (List UInt8)) (out : Option Contents) :
    (parse crc32 data out).1 = .ok ∨ (parse crc32 data out).2 = out := by
  cases data with
  | none => exact .inr rfl
  | some data =>
    by_cases passes : check crc32 data = .ok
    · exact .inl passes
    · exact .inr (if_neg passes)

/-- What a call that reports `loaded` leaves: the contents of a valid image of
its own, or nothing. -/
structure Left (store : Store) (event : Event) (loaded : Bool) : Prop where
  reported : loaded = true ↔ Loads crc32 event
  accessible : store.loaded = loaded
  contents : ∀ image ∈ event.image, loaded = true → store.contents = extract image
  wiped : loaded = false → store.contents = {}

/-- A call that loads what it was given, valid or not. -/
theorem left_load (store : Store) (event : Event) :
    Left crc32 (store.load crc32 event.image).2 event (store.load crc32 event.image).1 := by
  have accepts := parse_ok_iff crc32 event.image (some {})
  by_cases passes : (parse crc32 event.image (some {})).1 = .ok
  · obtain ⟨image, given, valid⟩ := accepts.mp passes
    have loads : store.load crc32 event.image =
        (true, { contents := extract image, loaded := true, lastError := .ok }) := by
      rw [given] at passes ⊢
      have checked : check crc32 image = .ok := passes
      simp [Store.load, parse, checked]
    rw [loads]
    refine ⟨iff_of_true rfl ⟨image, given, valid⟩, rfl, fun other here _ => ?_, by simp⟩
    cases Option.mem_unique given here
    rfl
  · have refused : store.load crc32 event.image = (false,
        { store.unload with lastError := (parse crc32 event.image (some {})).1 }) := by
      simp [Store.load, passes]
    rw [refused]
    exact ⟨iff_of_false Bool.false_ne_true fun loads => passes (accepts.mpr loads), rfl,
      by simp, fun _ => rfl⟩

/-- A call without an image takes the keys away. -/
theorem left_without {store : Store} {event : Event} (nothing : event.image = none)
    (unloaded : store.loaded = false) (wiped : store.contents = {}) :
    Left crc32 store event false := by
  refine ⟨iff_of_false Bool.false_ne_true ?_, unloaded, by simp, fun _ => wiped⟩
  rintro ⟨image, given, -⟩
  rw [nothing] at given
  contradiction

private theorem left_step (store : Store) (event : Event) :
    Left crc32 (step crc32 store event) event (reports crc32 store event) := by
  cases event with
  | load data => exact left_load crc32 store (.load data)
  | loadFromCard mounted file =>
    cases mounted with
    | false => exact left_without crc32 rfl rfl rfl
    | true =>
      cases file with
      | none => exact left_without crc32 rfl rfl rfl
      | some data => exact left_load crc32 store (.loadFromCard true (some data))
  | unload => exact left_without crc32 rfl rfl rfl

end

/-- The script's image loads with its keys. The parser names the first invalid
field and else keeps its hands off the destination. A call reports that it loaded
exactly if its image is valid; after one that does the store holds that image's
contents and gives out its keys, and after any other call, or before the first, it
gives out none and is all zero. -/
theorem keys_are_as_provisioned (crc32 : List UInt8 → UInt32) :
    (∀ (Password : Type) (deriveKey : Password → Bytes kKeyLength) (passwordE passwordL : Password)
      (out : Option Contents),
      ∃ contents, parse crc32 (some (buildBlob crc32 deriveKey passwordE passwordL)) out =
          (.ok, out.map fun _ => contents) ∧
        Carries contents (deriveKey passwordE) (deriveKey passwordL)) ∧
    (∀ data out, ((parse crc32 data out).1 = .ok ↔
        ∃ image ∈ data, ∀ field ∈ fields, Valid crc32 image field) ∧
      (∀ error, (parse crc32 data out).1 = error ↔
        FirstInvalid (Valid crc32 (data.getD [])) fields error) ∧
      ((parse crc32 data out).1 = .ok ∨ (parse crc32 data out).2 = out)) ∧
    ((after crc32 []).keyE = none ∧ (after crc32 []).keyL = none ∧
      (after crc32 []).contents = {}) ∧
    ∀ events event,
      (reports crc32 (after crc32 events) event = true ↔ Loads crc32 event) ∧
      (∀ image ∈ event.image, reports crc32 (after crc32 events) event = true →
        (after crc32 (events ++ [event])).contents = extract image ∧
        (after crc32 (events ++ [event])).keyE = some (extract image).keyE ∧
        (after crc32 (events ++ [event])).keyL = some (extract image).keyL) ∧
      (reports crc32 (after crc32 events) event = false →
        (after crc32 (events ++ [event])).contents = {} ∧
        (after crc32 (events ++ [event])).keyE = none ∧
        (after crc32 (events ++ [event])).keyL = none) := by
  refine ⟨fun Password => parse_buildBlob crc32, fun data out =>
    ⟨parse_ok_iff crc32 data out, parse_first_invalid crc32 data out, parse_kept crc32 data out⟩,
    ⟨rfl, rfl, rfl⟩, fun events event => ?_⟩
  have left := left_step crc32 (after crc32 events) event
  have last : after crc32 (events ++ [event]) = step crc32 (after crc32 events) event :=
    List.foldl_concat ..
  rw [last]
  unfold Store.keyE Store.keyL
  refine ⟨left.reported, fun image given loaded => ?_, fun refused => ?_⟩
  · have accessible : (step crc32 (after crc32 events) event).loaded = true :=
      left.accessible.trans loaded
    rw [if_pos accessible, if_pos accessible, left.contents image given loaded]
    exact ⟨rfl, rfl, rfl⟩
  · have lost : (step crc32 (after crc32 events) event).loaded ≠ true := by
      simp [left.accessible, refused]
    rw [if_neg lost, if_neg lost]
    exact ⟨left.wiped refused, rfl, rfl⟩

end BallyOS.KeyStore
