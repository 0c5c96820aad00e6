import Mathlib.Data.List.FinRange
import Mathlib.Logic.Function.Basic
import BallyOS.Btp.Interface
import BallyOS.Library.LittleEndian

/-! A cache and a codec that meet the laws the command path relies on. The
cache takes an empty slot first and an answered one when none is empty; the
codec writes the request identity, the action, the outcome and the two lengths
before the message. -/
namespace BallyOS.Btp
open Library

/-- Entries by slot, with every identity that was ever taken. -/
structure RingCache (capacity : Nat) where
  slots : Nat → Option DedupEntry
  taken : List DedupKey
  within : ∀ slot entry, slots slot = some entry → slot < capacity
  apart : ∀ one two first second, slots one = some first → slots two = some second →
    first.key = second.key → one = two
  noted : ∀ slot entry, slots slot = some entry → entry.key ∈ taken

namespace RingCache

variable {capacity : Nat}

def empty (capacity : Nat) : RingCache capacity where
  slots := fun _ => none
  taken := []
  within := by simp
  apart := by simp
  noted := by simp

/-- A new entry for an identity that was never taken. -/
def place (cache : RingCache capacity) (slot : Fin capacity) (key : DedupKey)
    (request : List UInt8) (new : key ∉ cache.taken) : RingCache capacity where
  slots := Function.update cache.slots slot (some ⟨key, request, none⟩)
  taken := key :: cache.taken
  within := by
    intro another entry found
    by_cases here : another = slot
    · exact here ▸ slot.isLt
    · exact cache.within another entry (by rwa [Function.update_of_ne here] at found)
  apart := by
    intro one two first second foundOne foundTwo same
    have old : ∀ (another : Nat) entry, another ≠ slot →
        Function.update cache.slots slot (some ⟨key, request, none⟩) another = some entry →
          cache.slots another = some entry ∧ entry.key ≠ key := by
      intro another entry elsewhere found
      rw [Function.update_of_ne elsewhere] at found
      exact ⟨found, fun taken => new (taken ▸ cache.noted another entry found)⟩
    by_cases oneHere : one = slot <;> by_cases twoHere : two = slot
    · rw [oneHere, twoHere]
    · subst oneHere
      rw [Function.update_self] at foundOne
      cases foundOne
      exact absurd same.symm (old two second twoHere foundTwo).2
    · subst twoHere
      rw [Function.update_self] at foundTwo
      cases foundTwo
      exact absurd same (old one first oneHere foundOne).2
    · exact cache.apart one two first second (old one first oneHere foundOne).1
        (old two second twoHere foundTwo).1 same
  noted := by
    intro another entry found
    by_cases here : another = slot
    · subst here
      rw [Function.update_self] at found
      cases found
      exact List.mem_cons_self
    · rw [Function.update_of_ne here] at found
      exact List.mem_cons_of_mem _ (cache.noted another entry found)

/-- The result of the entry a slot holds. -/
def answer (cache : RingCache capacity) (slot : Nat) (entry : DedupEntry) (bytes : List UInt8)
    (held : cache.slots slot = some entry) : RingCache capacity :=
  have was : ∀ another occupant,
      Function.update cache.slots slot (some { entry with result := some bytes }) another =
        some occupant → ∃ old, cache.slots another = some old ∧ old.key = occupant.key := by
    intro another occupant found
    by_cases here : another = slot
    · subst here
      rw [Function.update_self] at found
      cases found
      exact ⟨entry, held, rfl⟩
    · rw [Function.update_of_ne here] at found
      exact ⟨occupant, found, rfl⟩
  { slots := Function.update cache.slots slot (some { entry with result := some bytes })
    taken := cache.taken
    within := by
      intro another occupant found
      obtain ⟨old, before, _⟩ := was another occupant found
      exact cache.within another old before
    apart := by
      intro one two first second foundOne foundTwo same
      obtain ⟨oldOne, beforeOne, keyOne⟩ := was one first foundOne
      obtain ⟨oldTwo, beforeTwo, keyTwo⟩ := was two second foundTwo
      exact cache.apart one two oldOne oldTwo beforeOne beforeTwo
        (keyOne.trans (same.trans keyTwo.symm))
    noted := by
      intro another occupant found
      obtain ⟨old, before, same⟩ := was another occupant found
      exact same ▸ cache.noted another old before }

def find (cache : RingCache capacity) (wanted : Option DedupEntry → Bool) :
    Option (Fin capacity) :=
  (List.finRange capacity).find? fun slot => wanted (cache.slots slot)

def holds (key : DedupKey) : Option DedupEntry → Bool
  | none => false
  | some entry => entry.key = key

def answered : Option DedupEntry → Bool
  | none => false
  | some entry => entry.result.isSome

/-- Where a new entry may go. -/
def room (cache : RingCache capacity) : Option (Fin capacity) :=
  (cache.find Option.isNone).or (cache.find answered)

/-- The verdict on bytes that come under a cached identity. -/
def compare (entry : DedupEntry) (request : List UInt8) : DedupVerdict :=
  if request = entry.request then
    match entry.result with
    | none => .duplicateInFlight
    | some stored => .duplicateComplete stored
  else .conflict

def classify (cache : RingCache capacity) (key : DedupKey) (request : List UInt8) :
    DedupVerdict × RingCache capacity :=
  match (cache.find (holds key)).bind fun slot => cache.slots slot with
  | some entry => (compare entry request, cache)
  | none =>
    if known : key ∈ cache.taken then (.evicted, cache)
    else match cache.room with
      | some slot => (.fresh slot, cache.place slot key request known)
      | none => (.capacityExhausted, cache)

def recordResult (cache : RingCache capacity) (slot : Nat) (bytes : List UInt8) :
    Option (RingCache capacity) :=
  match held : cache.slots slot with
  | none => none
  | some entry => if entry.result = none then some (cache.answer slot entry bytes held) else none

private theorem find_some {cache : RingCache capacity} (found : cache.find wanted = some slot) :
    wanted (cache.slots slot) = true := by
  simpa using List.find?_some found

/-- The identity of a held entry is found where it is held. -/
theorem find_holds {cache : RingCache capacity} (held : cache.slots slot = some entry) :
    (cache.find (holds entry.key)).bind (fun slot => cache.slots slot) = some entry := by
  have inside := cache.within slot entry held
  cases found : cache.find (holds entry.key) with
  | none =>
    have nowhere := List.find?_eq_none.mp found ⟨slot, inside⟩ (List.mem_finRange _)
    simp [holds, held] at nowhere
  | some there =>
    have same := find_some found
    cases occupant : cache.slots there with
    | none => simp [holds, occupant] at same
    | some other =>
      simp only [holds, occupant, decide_eq_true_eq] at same
      have here := cache.apart there slot other entry occupant held same
      rw [Option.bind_some, here, held]

end RingCache

/-- The cache as the command path sees it. -/
def ringCache (capacity : Nat) : DedupCache (RingCache capacity) where
  initial := .empty capacity
  classify := RingCache.classify
  recordResult := RingCache.recordResult
  entry := RingCache.slots
  seen := fun cache key => key ∈ cache.taken

namespace RingCache

variable {capacity : Nat} {cache next : RingCache capacity}

/-- How a verdict comes about. -/
theorem classify_cases (classified : cache.classify key request = (verdict, next)) :
    (next = cache ∧ ∃ slot entry, cache.slots slot = some entry ∧ entry.key = key ∧
        verdict = compare entry request) ∨
      (next = cache ∧ (verdict = .evicted ∨ verdict = .capacityExhausted)) ∨
      ∃ (slot : Fin capacity) (new : key ∉ cache.taken), verdict = .fresh slot ∧
        next = cache.place slot key request new ∧
          ∀ entry, cache.slots slot = some entry → entry.result ≠ none := by
  simp only [classify] at classified
  split at classified
  · rename_i entry held
    cases classified
    left
    obtain ⟨slot, found, here⟩ := Option.bind_eq_some_iff.mp held
    have same := find_some found
    rw [here, holds, decide_eq_true_eq] at same
    exact ⟨rfl, slot, entry, here, same, rfl⟩
  split at classified
  · cases classified
    exact .inr (.inl ⟨rfl, .inl rfl⟩)
  rename_i new
  split at classified
  · rename_i slot free
    cases classified
    refine .inr (.inr ⟨slot, new, rfl, rfl, ?_⟩)
    intro entry held unanswered
    rcases Option.or_eq_some_iff.mp free with empty | ⟨_, done⟩
    · simpa [held] using find_some empty
    · simpa [held, answered, unanswered] using find_some done
  · cases classified
    exact .inr (.inl ⟨rfl, .inr rfl⟩)

private theorem compare_ne_fresh (entry : DedupEntry) (request : List UInt8) (slot : Nat) :
    compare entry request ≠ .fresh slot := by
  unfold compare
  split
  · split <;> simp
  · simp

private theorem compare_complete (same : compare entry request = .duplicateComplete stored) :
    request = entry.request ∧ entry.result = some stored := by
  unfold compare at same
  split at same
  · rename_i equal
    split at same
    · cases same
    · cases same
      exact ⟨equal, ‹_›⟩
  · cases same

end RingCache

theorem ringCache_lawful (capacity : Nat) : (ringCache capacity).Lawful capacity where
  initialEntry := fun _ => rfl
  entryWithin := fun cache => cache.within
  fresh := by
    intro cache key request slot next classified
    rcases RingCache.classify_cases classified with
      ⟨_, _, entry, _, _, same⟩ | ⟨_, same | same⟩ | ⟨there, new, same, rfl, idle⟩
    · exact absurd same.symm (RingCache.compare_ne_fresh entry request slot)
    · cases same
    · cases same
    · cases same
      refine ⟨there.isLt, new, List.mem_cons_self, idle, Function.update_self .., ?_⟩
      intro other elsewhere
      exact Function.update_of_ne elsewhere ..
  notFresh := by
    intro cache key request verdict next classified other slot
    rcases RingCache.classify_cases classified with
      ⟨rfl, _⟩ | ⟨rfl, _⟩ | ⟨there, _, same, _⟩
    · rfl
    · rfl
    · exact absurd same (other there)
  seenStays := by
    intro cache key request verdict next other classified seen
    rcases RingCache.classify_cases classified with
      ⟨rfl, _⟩ | ⟨rfl, _⟩ | ⟨_, _, _, rfl, _⟩
    · exact seen
    · exact seen
    · exact List.mem_cons_of_mem _ seen
  cached := by
    intro cache slot entry request held
    show (RingCache.classify cache entry.key request).1 = RingCache.compare entry request
    rw [RingCache.classify, RingCache.find_holds held]
  complete := by
    intro cache key request stored next classified
    rcases RingCache.classify_cases classified with
      ⟨_, slot, entry, held, identity, same⟩ | ⟨_, same | same⟩ | ⟨_, _, same, _⟩
    · obtain ⟨rfl, answered⟩ := RingCache.compare_complete same.symm
      exact ⟨slot, by rw [← identity, ← answered]; exact held⟩
    · cases same
    · cases same
    · cases same
  record := by
    intro cache slot bytes next recorded
    change RingCache.recordResult cache slot bytes = some next at recorded
    unfold RingCache.recordResult at recorded
    split at recorded
    · cases recorded
    rename_i entry held
    split at recorded
    · rename_i unanswered
      cases recorded
      refine ⟨⟨entry, held, unanswered, Function.update_self ..⟩, ?_, fun _ seen => seen⟩
      intro other elsewhere
      exact Function.update_of_ne elsewhere ..
    · cases recorded

/-- The payload of a COMMAND_RESULT: the request it answers, its action, the
outcome, the lengths of message and body, and the message. -/
def commandResultBytes (result : CommandResult) : List UInt8 :=
  toBytes 4 result.request.sourceId.toNat ++ toBytes 4 result.request.bootId.toNat ++
    toBytes 4 result.request.sequence.toNat ++ toBytes 2 result.actionId.toNat ++
      toBytes 2 result.actionVersion.toNat ++ [result.status, 0] ++
        toBytes 2 result.errorCode.toNat ++ toBytes 2 result.message.length ++ toBytes 4 0 ++
          result.message

def encodeCommandResult (result : CommandResult) (capacity : Nat) : Option (List UInt8) :=
  let bytes := commandResultBytes result
  if bytes.length ≤ capacity then some bytes else none

def decodeCommandRequest (payload : List UInt8) : Except MessageError CommandRequest :=
  let field (offset width : Nat) := ofBytes ((payload.drop offset).take width)
  if payload.length < 20 then .error .payloadTooShort
  else if field 12 4 ≠ 0 then .error .reservedNotZero
  else if payload.length < 20 + field 16 4 then .error .payloadTooShort
  else if 20 + field 16 4 < payload.length then .error .trailingBytes
  else .ok
    { targetSourceId := UInt32.ofNat (field 0 4)
      targetBootId := UInt32.ofNat (field 4 4)
      actionId := UInt16.ofNat (field 8 2)
      actionVersion := UInt16.ofNat (field 10 2)
      parameters := payload.drop 20 }

def referenceApi : Api (RingCache 16) where
  decodeCommandRequest := decodeCommandRequest
  encodeCommandResult := encodeCommandResult
  espNowMaxPayloadSize := 210
  dedup := ringCache 16

theorem referenceApi_encodesWithin : referenceApi.EncodesWithin := by
  intro result capacity bytes coded
  simp only [referenceApi, encodeCommandResult] at coded
  split at coded
  · rename_i fits
    cases coded
    exact fits
  · cases coded

theorem referenceApi_encodesExactly : referenceApi.EncodesExactly 26 := by
  intro result capacity
  have size : (commandResultBytes result).length = 26 + result.message.length := by
    simp only [commandResultBytes, List.length_append, length_toBytes, List.length_cons,
      List.length_nil]
  simp [referenceApi, encodeCommandResult, size]

theorem ringCache_recordsInFlight (capacity size : Nat) :
    (ringCache capacity).RecordsInFlight size := by
  intro cache slot entry bytes held unanswered _
  show (RingCache.recordResult cache slot bytes).isSome
  unfold RingCache.recordResult
  split
  · rename_i empty
    cases held.symm.trans empty
  · rename_i other same
    cases held.symm.trans same
    simp [unanswered]

end BallyOS.Btp
