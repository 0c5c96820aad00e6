import BallyOS.Ota.Updater

/-! A search that is not cancelled, step by step: it waits, or a scan sends it back to the
first candidate, or it makes an attempt. -/
namespace BallyOS.Ota
open Library

/-- Nobody ends the search with this event. -/
def Uncancelled (updater : Updater) : Event → Prop
  | .cancel => False
  | .tick pressed _ _ => updater.cancelsOn pressed = false
  | _ => True

/-- What `start` and `startDirect` return. -/
def Updater.startReturns (updater : Updater) (answers : Answers) : Bool :=
  updater.phase ≠ .idle || answers.mounted && answers.stored ≠ []

/-- The candidate that the event makes an attempt on, be it refused at once or not. -/
def attemptOf (tuning : OtaTuning) (updater : Updater) (event : Event) : Option Nat :=
  match reportOf tuning updater event with
  | some .connecting | some .connectRefused => (step tuning updater event).map (·.candidateIndex)
  | _ => none

/-- What the driver is given for the attempt that the event makes. -/
def handedBy (tuning : OtaTuning) (updater : Updater) (event : Event) : Option StaConfig :=
  match attemptOf tuning updater event with
  | some _ => (step tuning updater event).bind (·.config)
  | none => none

structure Updater.Searches (updater : Updater) (stored : List Credential) : Prop where
  candidates : updater.candidates = stored
  active : updater.phase ≠ .idle
  search : updater.surveyOnly = false

/-- The candidate from which a scan looks on, now or once the present attempt has failed. -/
def Updater.upcoming (updater : Updater) : Nat :=
  if updater.phase = .scanning then updater.candidateIndex else updater.candidateIndex + 1

/-- What a step of a search comes to, with the attempt it makes. -/
inductive SearchStep (updater next : Updater) : Event → Option Nat → Prop
  | waits (same : next.upcoming = updater.upcoming) : SearchStep updater next event none
  | wraps (scanning : updater.phase = .scanning)
      (unseen : updater.candidates.length ≤ updater.visibleIndex answers.records)
      (first : next.candidateIndex = 0) (again : next.phase = .scanning) :
      SearchStep updater next (.tick pressed now answers) none
  | tries (scanning : updater.phase = .scanning)
      (seen : updater.visibleIndex answers.records < updater.candidates.length)
      (chosen : next.candidateIndex = updater.visibleIndex answers.records)
      (given : next.config =
        updater.candidates[updater.visibleIndex answers.records]?.map Credential.staConfig)
      (left : next.phase ≠ .scanning) :
      SearchStep updater next (.tick pressed now answers)
        (some (updater.visibleIndex answers.records))

namespace Updater
variable {updater : Updater} {stored : List Credential} (tuning : OtaTuning)

theorem handleScanDone_search (searches : updater.Searches stored) (now : UInt32)
    (answers : Answers) :
    (updater.handleScanDone tuning now answers).1.Searches stored ∧
      (updater.candidates.length ≤ updater.visibleIndex answers.records ∧
          (updater.handleScanDone tuning now answers).2 = some .notVisible ∧
          (updater.handleScanDone tuning now answers).1.candidateIndex = 0 ∧
          (updater.handleScanDone tuning now answers).1.phase = updater.phase ∨
        updater.visibleIndex answers.records < updater.candidates.length ∧
          ((updater.handleScanDone tuning now answers).2 = some .connecting ∨
            (updater.handleScanDone tuning now answers).2 = some .connectRefused) ∧
          (updater.handleScanDone tuning now answers).1.candidateIndex =
            updater.visibleIndex answers.records ∧
          (updater.handleScanDone tuning now answers).1.config =
            updater.candidates[updater.visibleIndex answers.records]?.map Credential.staConfig ∧
          (updater.handleScanDone tuning now answers).1.phase ≠ .scanning) := by
  unfold handleScanDone
  dsimp only
  rw [if_neg (by simp [searches.search])]
  by_cases unseen : updater.candidates.length ≤ updater.visibleIndex answers.records
  · rw [if_pos unseen]
    exact ⟨⟨searches.candidates, searches.active, searches.search⟩,
      .inl ⟨unseen, rfl, rfl, rfl⟩⟩
  · rw [if_neg unseen]
    split
    · exact ⟨⟨searches.candidates, by simp, searches.search⟩,
        .inr ⟨Nat.lt_of_not_le unseen, .inl rfl, rfl, rfl, by simp⟩⟩
    · exact ⟨⟨searches.candidates, by simp [failCandidate], searches.search⟩,
        .inr ⟨Nat.lt_of_not_le unseen, .inr rfl, rfl, rfl, by simp [failCandidate]⟩⟩

theorem process_scanning (scanning : updater.phase = .scanning)
    (goesOn : updater.cancelsOn pressed = false) (now : UInt32) (answers : Answers) :
    updater.process tuning pressed now answers = updater.processScanning tuning now answers := by
  simp [process, scanning, goesOn]

theorem process_connecting (connecting : updater.phase = .connecting)
    (goesOn : updater.cancelsOn pressed = false) (now : UInt32) (answers : Answers) :
    updater.process tuning pressed now answers =
      updater.processConnecting tuning now answers := by
  simp [process, connecting, goesOn]

theorem process_failed (failed : updater.phase = .connectFailed)
    (goesOn : updater.cancelsOn pressed = false) (now : UInt32) (answers : Answers) :
    updater.process tuning pressed now answers =
      (if due now updater.retryAt then updater.tryNextCandidate now else updater, none) := by
  simp [process, failed, goesOn]

theorem process_serving (serving : updater.phase = .serving)
    (goesOn : updater.cancelsOn pressed = false) (now : UInt32) (answers : Answers) :
    updater.process tuning pressed now answers = (updater, none) := by
  simp [process, serving, goesOn]

theorem beginScanning_search (searches : updater.Searches stored) (direct : Bool) (now : UInt32)
    (answers : Answers) : (updater.beginScanning tuning direct now answers).Searches stored := by
  unfold beginScanning
  rw [if_pos searches.active]
  split
  · dsimp only
    split
    · split
      · exact ⟨searches.candidates, searches.active, searches.search⟩
      · exact ⟨searches.candidates, by simp [failCandidate], searches.search⟩
    · exact ⟨searches.candidates, searches.active, searches.search⟩
  · exact searches

private theorem beginScanning_upcoming (active : updater.phase ≠ .idle) (direct : Bool)
    (now : UInt32)
    (answers : Answers) :
    (updater.beginScanning tuning direct now answers).upcoming = updater.upcoming := by
  unfold beginScanning
  rw [if_pos active]
  split
  · dsimp only
    split
    · rename_i serving
      split
      · rfl
      · simp [failCandidate, upcoming, serving]
    · rfl
  · rfl

private theorem processConnecting_search (searches : updater.Searches stored)
    (connecting : updater.phase = .connecting) (now : UInt32) (answers : Answers) :
    (updater.processConnecting tuning now answers).1.Searches stored ∧
      (updater.processConnecting tuning now answers).1.upcoming = updater.upcoming ∧
      (updater.processConnecting tuning now answers).2 ≠ some .connecting ∧
      (updater.processConnecting tuning now answers).2 ≠ some .connectRefused := by
  obtain ⟨candidates, active, search⟩ := searches
  unfold processConnecting
  dsimp only
  split
  · split
    · exact ⟨⟨candidates, by simp, search⟩, by simp [upcoming, connecting], by simp, by simp⟩
    · split
      · exact ⟨⟨candidates, by simp, search⟩, by simp [upcoming, connecting], by simp, by simp⟩
      · exact ⟨⟨candidates, by simp [failCandidate], search⟩,
          by simp [upcoming, connecting, failCandidate], by simp, by simp⟩
  · split
    · exact ⟨⟨candidates, by simp [failCandidate], search⟩,
        by simp [upcoming, connecting, failCandidate], by simp, by simp⟩
    · split
      · exact ⟨⟨candidates, by simp [failCandidate], search⟩,
          by simp [upcoming, connecting, failCandidate], by simp, by simp⟩
      · exact ⟨⟨candidates, active, search⟩, rfl, by simp, by simp⟩

end Updater

theorem attemptOf_tick (tuning : OtaTuning) (updater : Updater) (pressed : Bool) (now : UInt32)
    (answers : Answers) :
    attemptOf tuning updater (.tick pressed now answers) =
      match (updater.process tuning pressed now answers).2 with
      | some .connecting | some .connectRefused =>
        some (updater.process tuning pressed now answers).1.candidateIndex
      | _ => none := rfl

theorem process_search (tuning : OtaTuning) {updater : Updater} {stored : List Credential}
    (searches : updater.Searches stored) (goesOn : updater.cancelsOn pressed = false)
    (now : UInt32) (answers : Answers) :
    (updater.process tuning pressed now answers).1.Searches stored ∧
      SearchStep updater (updater.process tuning pressed now answers).1
        (.tick pressed now answers)
        (attemptOf tuning updater (.tick pressed now answers)) := by
  rw [attemptOf_tick]
  cases phase : updater.phase with
  | idle => exact absurd phase searches.active
  | scanning =>
    rw [Updater.process_scanning tuning phase goesOn]
    unfold Updater.processScanning
    split
    · have taken : Updater.Searches { updater with scanDone := false } stored :=
        ⟨searches.candidates, searches.active, searches.search⟩
      obtain ⟨still, ⟨unseen, report, first, same⟩ | ⟨seen, report, chosen, given, left⟩⟩ :=
        Updater.handleScanDone_search tuning taken now answers
      · rw [report]
        exact ⟨still, .wraps phase unseen first (same.trans phase)⟩
      · refine ⟨still, ?_⟩
        rcases report with report | report <;> rw [report, chosen] <;>
          exact .tries phase seen chosen given left
    · split
      · exact ⟨⟨searches.candidates, searches.active, searches.search⟩, .waits rfl⟩
      · exact ⟨searches, .waits rfl⟩
  | connecting =>
    rw [Updater.process_connecting tuning phase goesOn]
    obtain ⟨still, same, quiet, taken⟩ :=
      Updater.processConnecting_search tuning searches phase now answers
    refine ⟨still, ?_⟩
    split
    · contradiction
    · contradiction
    · exact .waits same
  | connectFailed =>
    rw [Updater.process_failed tuning phase goesOn]
    dsimp only
    split
    · refine ⟨⟨searches.candidates, by simp [Updater.tryNextCandidate], searches.search⟩, ?_⟩
      exact .waits (by simp [Updater.upcoming, Updater.tryNextCandidate, phase])
    · exact ⟨searches, .waits rfl⟩
  | serving =>
    rw [Updater.process_serving tuning phase goesOn]
    exact ⟨searches, .waits rfl⟩

/-- Every step of a search that is not cancelled is one of a search. -/
theorem search_step {tuning : OtaTuning} {updater next : Updater} {stored : List Credential}
    (searches : updater.Searches stored) (goesOn : Uncancelled updater event)
    (stepped : step tuning updater event = some next) :
    next.Searches stored ∧ SearchStep updater next event (attemptOf tuning updater event) := by
  obtain ⟨candidates, active, search⟩ := searches
  cases event with
  | tick pressed now answers =>
    cases stepped
    exact process_search tuning ⟨candidates, active, search⟩ goesOn now answers
  | cancel => exact absurd goesOn id
  | start direct now answers =>
    cases stepped
    refine ⟨Updater.beginScanning_search tuning ⟨candidates, active, search⟩ direct now answers, ?_⟩
    exact .waits (Updater.beginScanning_upcoming tuning active direct now answers)
  | survey now answers =>
    cases stepped
    rw [Updater.survey, if_pos active]
    exact ⟨⟨candidates, active, search⟩, .waits rfl⟩
  | scanDone =>
    cases stepped
    exact ⟨⟨candidates, active, search⟩, .waits rfl⟩
  | gotIp attempt =>
    obtain ⟨_, same⟩ := Option.ite_none_right_eq_some.mp stepped
    cases same
    exact ⟨⟨candidates, active, search⟩, .waits rfl⟩
  | disconnected attempt =>
    obtain ⟨_, same⟩ := Option.ite_none_right_eq_some.mp stepped
    cases same
    exact ⟨⟨candidates, active, search⟩, .waits rfl⟩
  | uploadStart =>
    obtain ⟨_, same⟩ := Option.ite_none_right_eq_some.mp stepped
    cases same
    exact ⟨⟨candidates, active, search⟩, .waits rfl⟩
  | uploadEnd =>
    cases stepped
    exact ⟨⟨candidates, active, search⟩, .waits rfl⟩

/-- The attempt that a step makes is on a stored network, and the driver is given that. -/
theorem handedBy_of_comes {tuning : OtaTuning} {updater next : Updater} {stored : List Credential}
    (searches : updater.Searches stored)
    (comes : SearchStep updater next event (attemptOf tuning updater event))
    (attempt : attemptOf tuning updater event = some index)
    (stepped : step tuning updater event = some next) :
    ∃ credential, stored[index]? = some credential ∧
      handedBy tuning updater event = some credential.staConfig := by
  have given : handedBy tuning updater event = next.config := by
    rw [handedBy, attempt, stepped]
    rfl
  rw [attempt] at comes
  cases comes with
  | tries scanning seen chosen config left =>
    rw [List.getElem?_eq_getElem seen] at config
    refine ⟨_, ?_, given.trans config⟩
    rw [← searches.candidates]
    exact List.getElem?_eq_getElem seen

/-! ### From boot -/

/-- Only a scan that is for the survey is one. -/
def Updater.Orderly (updater : Updater) : Prop :=
  updater.surveyOnly = true → updater.phase = .scanning

namespace Updater
variable {updater : Updater} (tuning : OtaTuning)

theorem Orderly.searches (orderly : updater.Orderly) (active : updater.phase ≠ .idle)
    (hunting : ¬(updater.phase = .scanning ∧ updater.surveyOnly = true)) :
    updater.Searches updater.candidates := by
  refine ⟨rfl, active, Bool.eq_false_iff.mpr fun survey => hunting ⟨orderly survey, survey⟩⟩

theorem Orderly.idle (orderly : updater.Orderly) (idle : updater.phase = .idle) :
    updater.surveyOnly = false := by
  refine Bool.eq_false_iff.mpr fun survey => ?_
  rw [orderly survey] at idle
  contradiction

private theorem cancel_orderly (orderly : updater.Orderly) : updater.cancel.Orderly := by
  unfold cancel
  split
  · exact orderly
  · exact fun survey => absurd survey Bool.false_ne_true

/-- A tick of a survey waits for its scan, and ends it. -/
theorem process_survey (scanning : updater.phase = .scanning) (survey : updater.surveyOnly = true)
    (goesOn : updater.cancelsOn pressed = false) (now : UInt32) (answers : Answers) :
    (updater.process tuning pressed now answers).2 = none ∧
      (updater.process tuning pressed now answers).1.candidates = updater.candidates ∧
      (updater.process tuning pressed now answers).1.Orderly := by
  rw [process_scanning tuning scanning goesOn]
  unfold processScanning
  split
  · unfold handleScanDone
    rw [if_pos survey]
    exact ⟨rfl, rfl, fun survey => absurd survey Bool.false_ne_true⟩
  · split
    · exact ⟨rfl, rfl, fun _ => scanning⟩
    · exact ⟨rfl, rfl, fun _ => scanning⟩

theorem process_cancelled (goesOn : ¬ updater.cancelsOn pressed = false) (now : UInt32)
    (answers : Answers) :
    updater.process tuning pressed now answers = (updater, none) ∨
      updater.process tuning pressed now answers = (updater.cancel, none) := by
  unfold process
  split
  · exact .inl rfl
  · rw [if_pos (by simpa using goesOn)]
    exact .inr rfl

theorem process_idle (idle : updater.phase = .idle) (pressed : Bool) (now : UInt32)
    (answers : Answers) :
    updater.process tuning pressed now answers = (updater, none) := if_pos idle

private theorem Orderly.process (orderly : updater.Orderly) (pressed : Bool) (now : UInt32)
    (answers : Answers) : (updater.process tuning pressed now answers).1.Orderly := by
  by_cases idle : updater.phase = .idle
  · rw [process_idle tuning idle]
    exact orderly
  · by_cases goesOn : updater.cancelsOn pressed = false
    · by_cases surveying : updater.phase = .scanning ∧ updater.surveyOnly = true
      · exact (process_survey tuning surveying.1 surveying.2 goesOn now answers).2.2
      · have still := (process_search tuning (orderly.searches idle surveying) goesOn
          now answers).1
        exact fun survey => absurd (still.search.symm.trans survey) Bool.false_ne_true
    · rcases process_cancelled tuning goesOn now answers with same | cancelled
      · rw [same]
        exact orderly
      · rw [cancelled]
        exact cancel_orderly orderly

private theorem Orderly.beginScanning (orderly : updater.Orderly) (direct : Bool) (now : UInt32)
    (answers : Answers) : (updater.beginScanning tuning direct now answers).Orderly := by
  by_cases idle : updater.phase = .idle
  · have search := orderly.idle idle
    unfold Updater.beginScanning
    rw [if_neg (not_not_intro idle)]
    split
    · exact orderly
    · dsimp only
      split
      · exact orderly
      · exact fun survey => absurd (search.symm.trans survey) Bool.false_ne_true
  · by_cases surveying : updater.phase = .scanning ∧ updater.surveyOnly = true
    · unfold Updater.beginScanning
      rw [if_pos idle]
      split
      · dsimp only
        rw [if_neg (by simp [surveying.1])]
        exact orderly
      · exact orderly
    · have still := beginScanning_search tuning (orderly.searches idle surveying)
        direct now answers
      exact fun survey => absurd (still.search.symm.trans survey) Bool.false_ne_true

end Updater

theorem orderly_step {tuning : OtaTuning} {updater next : Updater} (orderly : updater.Orderly)
    (stepped : step tuning updater event = some next) : next.Orderly := by
  cases event with
  | start direct now answers =>
    cases stepped
    exact Updater.Orderly.beginScanning tuning orderly direct now answers
  | survey now answers =>
    cases stepped
    unfold Updater.survey
    split
    · exact orderly
    · exact fun _ => rfl
  | tick pressed now answers =>
    cases stepped
    exact Updater.Orderly.process tuning orderly pressed now answers
  | cancel =>
    cases stepped
    exact Updater.cancel_orderly orderly
  | scanDone =>
    cases stepped
    exact orderly
  | gotIp attempt =>
    obtain ⟨_, same⟩ := Option.ite_none_right_eq_some.mp stepped
    cases same
    exact orderly
  | disconnected attempt =>
    obtain ⟨_, same⟩ := Option.ite_none_right_eq_some.mp stepped
    cases same
    exact orderly
  | uploadStart =>
    obtain ⟨_, same⟩ := Option.ite_none_right_eq_some.mp stepped
    cases same
    exact orderly
  | uploadEnd =>
    cases stepped
    exact orderly

theorem orderly_run {tuning : OtaTuning} {updater : Updater}
    (ran : run (step tuning) {} events = some updater) : updater.Orderly :=
  run_invariant orderly_step (fun survey => absurd survey Bool.false_ne_true) ran

end BallyOS.Ota
