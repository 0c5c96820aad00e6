import Mathlib.Data.List.Basic

/-! The account of a link that serves one session after another. Every item
that is admitted and every item that is written is entered under the session it
was admitted in or written to, so that a session's own stream can be read back. -/
namespace BallyOS.Library

structure SessionLedger (α : Type) where
  admitted : List (Nat × List α) := []
  written : List (Nat × List α) := []

/-- One session's items among the entries, in order. -/
def itemsOf (session : Nat) (entries : List (Nat × List α)) : List α :=
  (entries.filter fun entry => entry.1 = session).flatMap Prod.snd

@[simp] theorem itemsOf_append (session : Nat) (first second : List (Nat × List α)) :
    itemsOf session (first ++ second) = itemsOf session first ++ itemsOf session second := by
  simp [itemsOf]

@[simp] theorem itemsOf_own (session : Nat) (items : List α) :
    itemsOf session [(session, items)] = items := by
  simp [itemsOf]

private theorem itemsOf_other (different : other ≠ session) (items : List α) :
    itemsOf session [(other, items)] = [] := by
  simp [itemsOf, different]

private theorem itemsOf_absent {entries : List (Nat × List α)}
    (absent : ∀ entry ∈ entries, entry.1 ≠ session) : itemsOf session entries = [] := by
  have none : entries.filter (fun entry => entry.1 = session) = [] :=
    List.filter_eq_nil_iff.mpr fun entry member => by simpa using absent entry member
  simp [itemsOf, none]

namespace SessionLedger

def enter (ledger : SessionLedger α) (session : Nat) (items : List α) : SessionLedger α :=
  { ledger with admitted := ledger.admitted ++ [(session, items)] }

def write (ledger : SessionLedger α) (session : Nat) (items : List α) : SessionLedger α :=
  { ledger with written := ledger.written ++ [(session, items)] }

/-- What was written to each session is a prefix of what that session admitted. -/
def Faithful (ledger : SessionLedger α) : Prop :=
  ∀ session, itemsOf session ledger.written <+: itemsOf session ledger.admitted

/-- No session beyond the last has an entry. -/
def Within (ledger : SessionLedger α) (last : Nat) : Prop :=
  ∀ entry ∈ ledger.admitted ++ ledger.written, entry.1 ≤ last

/-- Between sessions. -/
structure Settled (ledger : SessionLedger α) (last : Nat) : Prop where
  faithful : ledger.Faithful
  within : ledger.Within last

/-- During a session: what it admitted is written or still waiting. -/
structure Balanced (ledger : SessionLedger α) (last : Nat) (waiting : List α) : Prop
    extends Settled ledger last where
  live : itemsOf last ledger.admitted = itemsOf last ledger.written ++ waiting

theorem settled_empty : Settled ({} : SessionLedger α) last :=
  ⟨fun _ => List.prefix_rfl, fun _ member => absurd member List.not_mem_nil⟩

/-- A new session starts with nothing admitted and nothing written. -/
theorem Settled.opened {ledger : SessionLedger α} (settled : Settled ledger last) :
    Balanced ledger (last + 1) [] := by
  have fresh : ∀ entry ∈ ledger.admitted ++ ledger.written, entry.1 ≠ last + 1 := by
    intro entry member
    have := settled.within entry member
    omega
  refine ⟨⟨settled.faithful, fun entry member => ?_⟩, ?_⟩
  · exact Nat.le_succ_of_le (settled.within entry member)
  · rw [itemsOf_absent fun entry member => fresh entry (List.mem_append_left _ member),
      itemsOf_absent fun entry member => fresh entry (List.mem_append_right _ member)]
    rfl

private theorem faithful_of_live {ledger : SessionLedger α}
    (others : ∀ session ≠ last,
      itemsOf session ledger.written <+: itemsOf session ledger.admitted)
    (live : itemsOf last ledger.admitted = itemsOf last ledger.written ++ waiting) :
    ledger.Faithful := by
  intro session
  by_cases current : session = last
  · subst current
    exact ⟨waiting, live.symm⟩
  · exact others session current

theorem Balanced.admitting {ledger : SessionLedger α} (balanced : Balanced ledger last waiting)
    (items : List α) : Balanced (ledger.enter last items) last (waiting ++ items) := by
  have live : itemsOf last (ledger.enter last items).admitted =
      itemsOf last (ledger.enter last items).written ++ (waiting ++ items) := by
    simp [enter, balanced.live]
  refine ⟨⟨faithful_of_live (fun session other => ?_) live, fun entry member => ?_⟩, live⟩
  · simpa [enter, itemsOf_other other.symm] using balanced.faithful session
  · simp only [enter, List.mem_append, List.mem_singleton] at member
    rcases member with (held | rfl) | held
    · exact balanced.within entry (List.mem_append_left _ held)
    · exact Nat.le_refl _
    · exact balanced.within entry (List.mem_append_right _ held)

theorem Balanced.writing {ledger : SessionLedger α}
    (balanced : Balanced ledger last (items ++ waiting)) :
    Balanced (ledger.write last items) last waiting := by
  have live : itemsOf last (ledger.write last items).admitted =
      itemsOf last (ledger.write last items).written ++ waiting := by
    simp [write, balanced.live]
  refine ⟨⟨faithful_of_live (fun session other => ?_) live, fun entry member => ?_⟩, live⟩
  · simpa [write, itemsOf_other other.symm] using balanced.faithful session
  · simp only [write, List.mem_append, List.mem_singleton] at member
    rcases member with held | held | rfl
    · exact balanced.within entry (List.mem_append_left _ held)
    · exact balanced.within entry (List.mem_append_right _ held)
    · exact Nat.le_refl _

end SessionLedger
end BallyOS.Library
