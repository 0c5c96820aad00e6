import BallyOS.Telemetry.Exchange

/-! What publish calls answer and what the total counts: a call is noted from
its first step to its answer, so that the answers, the samples made visible and
the number of samples counted can be held against each other at any point. -/
namespace BallyOS.Telemetry
open Btp Library

/-! ### What calls answer -/

/-- What is noted of the call the producer is in. -/
def Producer.Notes (call : Call) : Producer → Prop
  | .idle => True
  | .checking topicId payload timestampUs =>
    call.numeric = true ∧ call.sample = ⟨timestampUs, 0, topicId, payload⟩ ∧ call.asked = 0
  | .reserving topicId payload timestampUs =>
    call.numeric = true ∧ call.sample = ⟨timestampUs, 0, topicId, payload⟩ ∧
      ∃ number, call.seen = some number ∧ number < kQueueCapacity
  | .filling sample | .storing sample | .counting sample =>
    call.numeric = true ∧ call.sample = sample ∧
      ∃ number, call.seen = some number ∧ number < kQueueCapacity
  | .staging text timestampUs | .packing text timestampUs =>
    call.numeric = false ∧ call.sample =
      ⟨timestampUs, 0, kSystemMonitorTopicId, (packSystemMonitor text).getD []⟩
  | .reservingDocument payload timestampUs =>
    call.numeric = false ∧ call.sample = ⟨timestampUs, 0, kSystemMonitorTopicId, payload⟩
  | .fillingDocument sample | .storingPending sample | .countingDocument sample =>
    call.numeric = false ∧ call.sample = sample

def Noted (world : World) : Prop := world.producer.Notes world.call

private theorem noted_produce {world next : World} (noted : Noted world)
    (stepped : world.produce reserved = some next) : Noted next := by
  unfold Noted at noted
  unfold World.produce at stepped
  split at stepped
  case h_1 => cases stepped
  case h_2 at_ =>
    rw [at_] at noted
    split at stepped
    · cases stepped
      trivial
    · rename_i room
      cases stepped
      refine ⟨noted.1, noted.2.1, _, rfl, ?_⟩
      rw [World.pending, length_pending]
      exact Nat.lt_of_not_le room
  case h_3 at_ =>
    rw [at_] at noted
    obtain ⟨numeric, sample, seen⟩ := noted
    split at stepped
    · cases stepped
      trivial
    · cases stepped
      refine ⟨numeric, ?_, seen⟩
      simp only [sample]
  case h_4 at_ | h_5 at_ =>
    rw [at_] at noted
    cases stepped
    exact noted
  case h_6 | h_12 =>
    cases stepped
    trivial
  case h_7 at_ =>
    rw [at_] at noted
    split at stepped
    · cases stepped
      trivial
    · cases stepped
      exact noted
  case h_8 at_ =>
    rw [at_] at noted
    split at stepped
    · cases stepped
      trivial
    · rename_i packed
      cases stepped
      refine ⟨noted.1, noted.2.trans ?_⟩
      rw [packed]
      rfl
  case h_9 at_ =>
    rw [at_] at noted
    obtain ⟨document, sample⟩ := noted
    split at stepped
    · cases stepped
      trivial
    · cases stepped
      refine ⟨document, ?_⟩
      simp only [sample]
  case h_10 at_ | h_11 at_ =>
    rw [at_] at noted
    cases stepped
    exact noted

/-- Flush concerns nothing that the producer or its calls keep. -/
theorem consume_frame {world next : World} (stepped : world.consume = some next) :
    next.producer = world.producer ∧ next.call = world.call ∧ next.returned = world.returned ∧
      next.published = world.published ∧ next.documents = world.documents ∧
      next.queuedTotal = world.queuedTotal ∧ next.stage = world.stage := by
  unfold World.consume at stepped
  split at stepped
  case h_1 => cases stepped
  case h_3 | h_5 =>
    cases stepped
    exact ⟨rfl, rfl, rfl, rfl, rfl, rfl, rfl⟩
  all_goals
    split at stepped
    all_goals
      cases stepped
      exact ⟨rfl, rfl, rfl, rfl, rfl, rfl, rfl⟩

theorem noted_step {world next : World} {event : Event} (noted : Noted world)
    (stepped : step world event = some next) : Noted next := by
  obtain ⟨reserved, stepped⟩ | stepped | opened := step_cases stepped
  · exact noted_produce noted stepped
  · obtain ⟨producer, call, -⟩ := consume_frame stepped
    unfold Noted
    rw [producer, call]
    exact noted
  cases opened with
  | configured | flushing | unbound => exact noted
  | refused => trivial
  | publishing => exact ⟨rfl, rfl, rfl⟩
  | staging => exact ⟨rfl, rfl⟩

/-- A numeric sample was refused for want of room when sixteen were pending, and
only then; a call so refused had asked for no sequence number. -/
def Refusal (call : Call) (result : PublishResult) : Prop :=
  call.numeric = true → (result = .queueFull ↔ call.seen = some kQueueCapacity) ∧
    (result = .queueFull → call.asked = 0)

private theorem refusal_of_room {call : Call} (seen : ∃ number, call.seen = some number ∧
    number < kQueueCapacity) (other : result ≠ .queueFull) : Refusal call result := by
  obtain ⟨number, seen, room⟩ := seen
  refine fun _ => ⟨iff_of_false other ?_, fun full => absurd full other⟩
  rw [seen, Option.some.injEq]
  exact room.ne

private theorem refusal_of_document {call : Call} (document : call.numeric = false) :
    Refusal call result :=
  fun numeric => absurd (numeric.symm.trans document) nofun

def Answered (world : World) : Prop := ∀ entry ∈ world.returned, Refusal entry.1 entry.2

private theorem answered_answer {world : World} {call : Call} (answered : Answered world)
    (fits : Refusal call result) :
    ∀ entry ∈ world.returned ++ [(call, result)], Refusal entry.1 entry.2 := by
  intro entry member
  rw [List.mem_append, List.mem_singleton] at member
  obtain earlier | rfl := member
  · exact answered entry earlier
  · exact fits

private theorem answered_produce {world next : World} (exchanged : Exchanged world)
    (noted : Noted world) (answered : Answered world)
    (stepped : world.produce reserved = some next) : Answered next := by
  unfold Noted at noted
  unfold World.produce at stepped
  split at stepped
  case h_1 => cases stepped
  case h_2 at_ =>
    rw [at_] at noted
    split at stepped
    · rename_i full
      have sixteen : world.pending.length = kQueueCapacity := by
        rw [World.pending, length_pending]
        exact Nat.le_antisymm exchanged.room full
      cases stepped
      exact answered_answer answered fun _ =>
        ⟨iff_of_true rfl (congrArg some sixteen), fun _ => noted.2.2⟩
    · cases stepped
      exact answered
  case h_3 at_ =>
    rw [at_] at noted
    split at stepped
    · cases stepped
      exact answered_answer answered (refusal_of_room noted.2.2 (by decide))
    · cases stepped
      exact answered
  case h_6 at_ =>
    rw [at_] at noted
    cases stepped
    exact answered_answer answered (refusal_of_room noted.2.2 (by decide))
  case h_7 at_ | h_8 at_ | h_9 at_ =>
    rw [at_] at noted
    split at stepped
    · cases stepped
      exact answered_answer answered (refusal_of_document noted.1)
    · cases stepped
      exact answered
  case h_12 at_ =>
    rw [at_] at noted
    cases stepped
    exact answered_answer answered (refusal_of_document noted.1)
  all_goals
    cases stepped
    exact answered

theorem answered_step {world next : World} {event : Event} (exchanged : Exchanged world)
    (noted : Noted world) (answered : Answered world) (stepped : step world event = some next) :
    Answered next := by
  obtain ⟨reserved, stepped⟩ | stepped | opened := step_cases stepped
  · exact answered_produce exchanged noted answered stepped
  · obtain ⟨-, -, returned, -⟩ := consume_frame stepped
    unfold Answered
    rw [returned]
    exact answered
  cases opened with
  | configured | flushing | unbound | publishing | staging => exact answered
  | refused call result _ looked other =>
    refine answered_answer answered fun _ => ⟨iff_of_false other.2 ?_, fun _ => looked.2⟩
    rw [looked.1]
    exact nofun

/-! ### What the count counts -/

/-- The samples of the calls that answered `Queued`, in the order of the answers. -/
def World.queued (world : World) (numeric : Bool) : List Sample :=
  world.returned.filterMap fun entry =>
    if entry.1.numeric = numeric ∧ entry.2 = .queued then some entry.1.sample else none

/-- A sample that is visible while its call has still to count it. -/
def Producer.uncounted : Producer → List Sample
  | .counting sample => [sample]
  | _ => []

def Producer.uncountedDocuments : Producer → List Sample
  | .countingDocument sample => [sample]
  | _ => []

structure Counted (world : World) : Prop where
  samples : world.published = world.queued true ++ world.producer.uncounted
  documents : world.documents = world.queued false ++ world.producer.uncountedDocuments
  total : world.queuedTotal =
    UInt32.ofNat ((world.queued true).length + (world.queued false).length)

private theorem queued_answer (world : World) (result : PublishResult) (numeric : Bool) :
    (world.answer result).queued numeric = world.queued numeric ++
      if world.call.numeric = numeric ∧ result = .queued then [world.call.sample] else [] := by
  unfold World.queued World.answer
  rw [List.filterMap_append]
  congr 1
  simp only [List.filterMap_cons, List.filterMap_nil]
  split_ifs <;> rfl

private theorem queued_refused (world : World) {result : PublishResult} (other : result ≠ .queued)
    (numeric : Bool) : (world.answer result).queued numeric = world.queued numeric := by
  rw [queued_answer, if_neg fun both => other both.2, List.append_nil]

/-- A call that answers `Queued` adds its sample to its own kind. -/
theorem queued_counted {world : World} (total : UInt32) {sample : Sample}
    (is : world.call.numeric = numeric) (noted : world.call.sample = sample) :
    ({ world with queuedTotal := total }.answer .queued).queued numeric =
        world.queued numeric ++ [sample] ∧
      ({ world with queuedTotal := total }.answer .queued).queued (!numeric) =
        world.queued (!numeric) := by
  have other : ¬ (world.call.numeric = (!numeric) ∧ PublishResult.queued = .queued) := by
    simp [is]
  constructor
  · rw [← noted]
    exact (queued_answer ..).trans (congrArg (world.queued numeric ++ ·) (if_pos ⟨is, rfl⟩))
  · calc _ = world.queued (!numeric) ++ [] := (queued_answer ..).trans
          (congrArg (world.queued (!numeric) ++ ·) (if_neg other))
      _ = _ := List.append_nil _

/-- A call that answers anything else adds to nothing. -/
theorem counted_refused {world : World} {result : PublishResult}
    (samples : world.published = world.queued true)
    (documents : world.documents = world.queued false)
    (total : world.queuedTotal =
      UInt32.ofNat ((world.queued true).length + (world.queued false).length))
    (other : result ≠ .queued) : Counted (world.answer result) where
  samples := by
    rw [queued_refused world other]
    exact samples.trans (List.append_nil _).symm
  documents := by
    rw [queued_refused world other]
    exact documents.trans (List.append_nil _).symm
  total := by
    rw [queued_refused world other, queued_refused world other]
    exact total

private theorem counted_produce {world next : World} (noted : Noted world)
    (counted : Counted world) (stepped : world.produce reserved = some next) : Counted next := by
  obtain ⟨samples, documents, total⟩ := counted
  unfold Noted at noted
  unfold World.produce at stepped
  split at stepped
  case h_1 => cases stepped
  case h_5 at_ =>
    rw [at_] at samples documents
    cases stepped
    exact ⟨congrArg (· ++ _) (samples.trans (List.append_nil _)), documents, total⟩
  case h_6 at_ =>
    rw [at_] at samples documents noted
    cases stepped
    obtain ⟨one, none⟩ := queued_counted (world.queuedTotal + 1) noted.1 noted.2.1
    refine ⟨?_, ?_, ?_⟩
    · rw [one]
      exact samples.trans (List.append_nil _).symm
    · exact documents.trans (congrArg (· ++ _) none.symm)
    · rw [one, show World.queued _ false = _ from none, List.length_append, Nat.add_right_comm]
      exact (congrArg (· + 1) total).trans (UInt32.ofNat_add _ 1).symm
  case h_11 at_ =>
    rw [at_] at samples documents
    cases stepped
    exact ⟨samples, congrArg (· ++ _) (documents.trans (List.append_nil _)), total⟩
  case h_12 at_ =>
    rw [at_] at samples documents noted
    cases stepped
    obtain ⟨one, none⟩ := queued_counted (world.queuedTotal + 1) noted.1 noted.2
    refine ⟨?_, ?_, ?_⟩
    · exact samples.trans (congrArg (· ++ _) none.symm)
    · rw [one]
      exact documents.trans (List.append_nil _).symm
    · rw [one, show World.queued _ true = _ from none, List.length_append, ← Nat.add_assoc]
      exact (congrArg (· + 1) total).trans (UInt32.ofNat_add _ 1).symm
  case h_4 at_ | h_10 at_ =>
    rw [at_] at samples documents
    cases stepped
    exact ⟨samples, documents, total⟩
  -- what is left either refuses or makes nothing visible
  all_goals
    rename_i at_
    rw [at_] at samples documents
    have plain := samples.trans (List.append_nil _)
    have plainDocuments := documents.trans (List.append_nil _)
    split at stepped
    all_goals
      cases stepped
      first
        | exact ⟨samples, documents, total⟩
        | exact counted_refused plain plainDocuments total nofun

theorem counted_step {world next : World} {event : Event} (noted : Noted world)
    (counted : Counted world) (stepped : step world event = some next) : Counted next := by
  obtain ⟨reserved, stepped⟩ | stepped | opened := step_cases stepped
  · exact counted_produce noted counted stepped
  · obtain ⟨producer, -, returned, published, documents, total, -⟩ := consume_frame stepped
    refine ⟨?_, ?_, ?_⟩
    · rw [published, World.queued, returned, producer]
      exact counted.samples
    · rw [documents, World.queued, returned, producer]
      exact counted.documents
    · rw [total, World.queued, World.queued, returned]
      exact counted.total
  obtain ⟨samples, documents, total⟩ := counted
  cases opened with
  | configured | flushing | unbound => exact ⟨samples, documents, total⟩
  | publishing _ _ _ idle | staging _ _ idle =>
    rw [idle] at samples documents
    exact ⟨samples, documents, total⟩
  | refused _ _ idle _ other =>
    rw [idle] at samples documents
    exact counted_refused (samples.trans (List.append_nil _))
      (documents.trans (List.append_nil _)) total other.1

end BallyOS.Telemetry
