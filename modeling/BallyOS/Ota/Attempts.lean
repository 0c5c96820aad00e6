import BallyOS.Ota.Updater

/-! Whether an attempt to connect is judged by its own events. The flags are
cleared when a search begins and not when an attempt does, so an event of one
candidate can wait for the next. -/
namespace BallyOS.Ota
open Library

/-- A verdict of this tick comes from an event of the current attempt. -/
def JudgedByOwn (tuning : OtaTuning) (updater : Updater) (event : Event) : Prop :=
  match reportOf tuning updater event with
  | some .connected | some .serverFailed => updater.gotIp = some updater.attempt
  | some .disconnected => updater.disconnected = some updater.attempt
  | _ => True

/-- While connecting, the flag that decides first was raised by the current attempt. -/
def OwnFlags (updater : Updater) : Prop :=
  updater.phase = .connecting →
    (∀ attempt, updater.gotIp = some attempt → attempt = updater.attempt) ∧
    (updater.gotIp = none → ∀ attempt, updater.disconnected = some attempt →
      attempt = updater.attempt)

/-- The tick begins an attempt. -/
def Updater.connects (updater : Updater) (pressed : Bool) (answers : Answers) : Prop :=
  updater.phase = .scanning ∧ updater.cancelsOn pressed = false ∧ updater.scanDone = true ∧
    updater.surveyOnly = false ∧
    updater.visibleIndex answers.records < updater.candidates.length ∧ answers.connected = true

/-- No event waits when an attempt begins, and while it is under way an event of
an earlier one only joins an event of its own. -/
def Timely (updater : Updater) : Event → Prop
  | .tick pressed _ answers => updater.connects pressed answers →
      updater.gotIp = none ∧ updater.disconnected = none
  | .gotIp attempt => updater.phase = .connecting → attempt < updater.attempt →
      updater.gotIp = some updater.attempt
  | .disconnected attempt => updater.phase = .connecting → attempt < updater.attempt →
      updater.gotIp = none → updater.disconnected = some updater.attempt
  | _ => True

/-- The flags were raised by attempts that were made. -/
structure Made (updater : Updater) : Prop where
  gotIp : ∀ attempt, updater.gotIp = some attempt → attempt ≤ updater.attempt
  disconnected : ∀ attempt, updater.disconnected = some attempt → attempt ≤ updater.attempt

/-- A step that begins no attempt and raises no flag. -/
structure Ebbs (before after : Updater) : Prop where
  attempt : after.attempt = before.attempt
  gotIp : after.gotIp = before.gotIp ∨ after.gotIp = none
  disconnected : after.disconnected = before.disconnected ∨ after.disconnected = none
  connecting : after.phase = .connecting → before.phase = .connecting ∧
    after.gotIp = before.gotIp ∧ after.disconnected = before.disconnected
  serving : after.phase = .serving → before.phase = .serving ∨
    before.phase = .connecting ∧ before.gotIp.isSome = true

private theorem Ebbs.refl (updater : Updater) : Ebbs updater updater :=
  ⟨rfl, Or.inl rfl, Or.inl rfl, fun here => ⟨here, rfl, rfl⟩, Or.inl⟩

private theorem Ebbs.made {before after : Updater} (ebbs : Ebbs before after) (made : Made before) :
    Made after := by
  constructor
  · intro attempt raised
    rw [ebbs.attempt]
    rcases ebbs.gotIp with same | cleared
    · exact made.gotIp attempt (same ▸ raised)
    · rw [cleared] at raised
      contradiction
  · intro attempt raised
    rw [ebbs.attempt]
    rcases ebbs.disconnected with same | cleared
    · exact made.disconnected attempt (same ▸ raised)
    · rw [cleared] at raised
      contradiction

private theorem Ebbs.ownFlags {before after : Updater} (ebbs : Ebbs before after)
    (own : OwnFlags before) : OwnFlags after := by
  intro connecting
  obtain ⟨here, gotIp, disconnected⟩ := ebbs.connecting connecting
  rw [ebbs.attempt, gotIp, disconnected]
  exact own here

namespace Updater

/-- A step into a phase where nothing is decided yet. -/
theorem ebbs_of_phase {before after : Updater} (attempt : after.attempt = before.attempt)
    (gotIp : after.gotIp = before.gotIp ∨ after.gotIp = none)
    (disconnected : after.disconnected = before.disconnected ∨ after.disconnected = none)
    (elsewhere : after.phase ≠ .connecting ∧ after.phase ≠ .serving) : Ebbs before after :=
  ⟨attempt, gotIp, disconnected, fun here => absurd here elsewhere.1,
    fun here => absurd here elsewhere.2⟩

private theorem failCandidate_ebbs {before updater : Updater}
    (attempt : updater.attempt = before.attempt)
    (gotIp : updater.gotIp = before.gotIp ∨ updater.gotIp = none)
    (disconnected : updater.disconnected = before.disconnected ∨ updater.disconnected = none) :
    Ebbs before (updater.failCandidate tuning now) :=
  ebbs_of_phase attempt gotIp disconnected (by simp [failCandidate])

private theorem cancel_ebbs (updater : Updater) : Ebbs updater updater.cancel := by
  unfold cancel
  split
  · exact Ebbs.refl updater
  · exact ebbs_of_phase rfl (Or.inl rfl) (Or.inl rfl) (by simp)

private theorem beginScanning_ebbs (updater : Updater) (tuning : OtaTuning) (direct : Bool)
    (now : UInt32)
    (answers : Answers) : Ebbs updater (updater.beginScanning tuning direct now answers) := by
  unfold beginScanning
  split
  · split
    · dsimp only
      split
      · rename_i serving
        split
        · exact ⟨rfl, Or.inl rfl, Or.inl rfl, fun here => ⟨here, rfl, rfl⟩, Or.inl⟩
        · exact failCandidate_ebbs rfl (Or.inl rfl) (Or.inl rfl)
      · exact ⟨rfl, Or.inl rfl, Or.inl rfl, fun here => ⟨here, rfl, rfl⟩, Or.inl⟩
    · exact Ebbs.refl updater
  · split
    · exact Ebbs.refl updater
    · dsimp only
      split
      · exact ⟨rfl, Or.inl rfl, Or.inl rfl, fun here => ⟨here, rfl, rfl⟩, Or.inl⟩
      · exact ebbs_of_phase rfl (Or.inr rfl) (Or.inr rfl) (by simp)

private theorem survey_ebbs (updater : Updater) (tuning : OtaTuning) (now : UInt32)
    (answers : Answers) :
    Ebbs updater (updater.survey tuning now answers) := by
  unfold survey
  split
  · exact Ebbs.refl updater
  · exact ebbs_of_phase rfl (Or.inl rfl) (Or.inl rfl) (by simp)

private theorem handleScanDone_ebbs {updater : Updater} (scanning : updater.phase = .scanning)
    (idle : ¬(updater.surveyOnly = false ∧
      updater.visibleIndex answers.records < updater.candidates.length ∧
      answers.connected = true)) :
    Ebbs updater (updater.handleScanDone tuning now answers).1 := by
  unfold handleScanDone
  dsimp only
  split
  · exact ebbs_of_phase rfl (Or.inl rfl) (Or.inl rfl) (by simp)
  · rename_i search
    split
    · exact ebbs_of_phase rfl (Or.inl rfl) (Or.inl rfl) (by simp [scanning])
    · rename_i visible
      split
      · rename_i connected
        exact absurd ⟨by simpa using search, by omega, connected⟩ idle
      · exact failCandidate_ebbs rfl (Or.inl rfl) (Or.inl rfl)

private theorem processConnecting_ebbs {updater : Updater}
    (connecting : updater.phase = .connecting) :
    Ebbs updater (updater.processConnecting tuning now answers).1 := by
  unfold processConnecting
  split
  · rename_i gotIp
    have entered : updater.phase = .serving ∨
        updater.phase = .connecting ∧ updater.gotIp.isSome = true := Or.inr ⟨connecting, gotIp⟩
    dsimp only
    split
    · exact ⟨rfl, Or.inr rfl, Or.inl rfl, fun here => by contradiction, fun _ => entered⟩
    · split
      · exact ⟨rfl, Or.inr rfl, Or.inl rfl, fun here => by contradiction, fun _ => entered⟩
      · exact failCandidate_ebbs rfl (Or.inr rfl) (Or.inl rfl)
  · split
    · exact failCandidate_ebbs rfl (Or.inl rfl) (Or.inr rfl)
    · split
      · exact failCandidate_ebbs rfl (Or.inl rfl) (Or.inl rfl)
      · exact Ebbs.refl updater

/-- A tick that begins no attempt. -/
theorem process_ebbs {updater : Updater} (idle : ¬updater.connects pressed answers) :
    Ebbs updater (updater.process tuning pressed now answers).1 := by
  unfold process
  split
  · exact Ebbs.refl updater
  · split
    · exact cancel_ebbs updater
    · rename_i goesOn
      split
      · rename_i scanning
        unfold processScanning
        split
        · rename_i done
          have searching : Ebbs { updater with scanDone := false }
              (handleScanDone { updater with scanDone := false } tuning now answers).1 :=
            handleScanDone_ebbs scanning fun ⟨search, visible, connected⟩ =>
              idle ⟨scanning, by simpa using goesOn, done, search, visible, connected⟩
          exact ⟨searching.attempt, searching.gotIp, searching.disconnected, searching.connecting,
            searching.serving⟩
        · split
          · exact ⟨rfl, Or.inl rfl, Or.inl rfl, fun here => ⟨here, rfl, rfl⟩, Or.inl⟩
          · exact Ebbs.refl updater
      · rename_i connecting
        exact processConnecting_ebbs connecting
      · dsimp only
        split
        · exact ebbs_of_phase rfl (Or.inl rfl) (Or.inl rfl) (by simp [tryNextCandidate])
        · exact Ebbs.refl updater
      · exact Ebbs.refl updater
      · exact Ebbs.refl updater

private theorem handleScanDone_connects {updater : Updater} (search : updater.surveyOnly = false)
    (visible : updater.visibleIndex answers.records < updater.candidates.length)
    (connected : answers.connected = true) :
    (updater.handleScanDone tuning now answers).1 = { updater with
      scanInFlight := false
      candidateIndex := updater.visibleIndex answers.records
      config :=
        updater.candidates[updater.visibleIndex answers.records]?.map Credential.staConfig
      attempt := updater.attempt + 1
      connectDeadline := now + tuning.connectTimeout
      phase := .connecting } := by
  unfold handleScanDone
  dsimp only
  rw [if_neg (by simp [search]), if_neg (Nat.not_le.mpr visible), if_pos connected]

/-- A tick that begins an attempt leaves the flags as they are. -/
theorem process_connects {updater : Updater} (begins : updater.connects pressed answers) :
    (updater.process tuning pressed now answers).1 = { updater with
      scanDone := false
      scanInFlight := false
      candidateIndex := updater.visibleIndex answers.records
      config :=
        updater.candidates[updater.visibleIndex answers.records]?.map Credential.staConfig
      attempt := updater.attempt + 1
      connectDeadline := now + tuning.connectTimeout
      phase := .connecting } := by
  obtain ⟨scanning, goesOn, done, search, visible, connected⟩ := begins
  have handled : updater.process tuning pressed now answers =
      handleScanDone { updater with scanDone := false } tuning now answers := by
    simp only [process, scanning, goesOn, processScanning, done, reduceCtorEq, if_false, if_true,
      Bool.false_eq_true]
  rw [handled]
  exact handleScanDone_connects search visible connected

/-- What a report tells of the state the tick found. -/
def Founded (updater : Updater) : Option Report → Prop
  | some .connected | some .serverFailed =>
    updater.phase = .connecting ∧ updater.gotIp.isSome = true
  | some .disconnected =>
    updater.phase = .connecting ∧ updater.gotIp = none ∧ updater.disconnected.isSome = true
  | _ => True

private theorem handleScanDone_founded (updater other : Updater) (tuning : OtaTuning) (now : UInt32)
    (answers : Answers) : other.Founded (updater.handleScanDone tuning now answers).2 := by
  unfold handleScanDone
  dsimp only
  split
  · trivial
  · split
    · trivial
    · split <;> trivial

private theorem process_founded (updater : Updater) (tuning : OtaTuning) (pressed : Bool)
    (now : UInt32)
    (answers : Answers) : updater.Founded (updater.process tuning pressed now answers).2 := by
  unfold process
  split
  · trivial
  · split
    · trivial
    · split
      · unfold processScanning
        split
        · exact handleScanDone_founded _ updater tuning now answers
        · split <;> trivial
      · rename_i connecting
        unfold processConnecting
        split
        · rename_i gotIp
          dsimp only
          split
          · exact ⟨connecting, gotIp⟩
          · split
            · exact ⟨connecting, gotIp⟩
            · exact ⟨connecting, gotIp⟩
        · rename_i quiet
          split
          · rename_i disconnected
            exact ⟨connecting, by simpa using quiet, disconnected⟩
          · split <;> trivial
      · trivial
      · trivial
      · trivial

end Updater

/-- Every verdict a tick can reach in a state is its own attempt's exactly when
the flags are. -/
theorem judged_iff (tuning : OtaTuning) (updater : Updater) :
    (∀ pressed now answers, JudgedByOwn tuning updater (.tick pressed now answers)) ↔
      OwnFlags updater := by
  constructor
  · intro judged connecting
    have verdict := judged false 0 {}
    have goesOn : updater.cancelsOn false = false := rfl
    simp only [JudgedByOwn, reportOf, Updater.process, connecting, goesOn, reduceCtorEq, if_false,
      Bool.false_eq_true, Updater.processConnecting] at verdict
    refine ⟨fun attempt raised => ?_, fun quiet attempt raised => ?_⟩
    · cases direct : updater.directMode <;> simpa [raised, direct] using verdict
    · simpa [quiet, raised] using verdict
  · intro own pressed now answers
    have founded := updater.process_founded tuning pressed now answers
    unfold JudgedByOwn reportOf
    dsimp only
    split
    · rename_i connected
      rw [connected] at founded
      obtain ⟨attempt, raised⟩ := Option.isSome_iff_exists.mp founded.2
      rw [raised, (own founded.1).1 attempt raised]
    · rename_i failed
      rw [failed] at founded
      obtain ⟨attempt, raised⟩ := Option.isSome_iff_exists.mp founded.2
      rw [raised, (own founded.1).1 attempt raised]
    · rename_i disconnected
      rw [disconnected] at founded
      obtain ⟨attempt, raised⟩ := Option.isSome_iff_exists.mp founded.2.2
      rw [raised, (own founded.1).2 founded.2.1 attempt raised]
    · trivial

/-- Every step that neither begins an attempt nor hands on an event of one. -/
def Calm (updater : Updater) : Event → Prop
  | .tick pressed _ answers => ¬updater.connects pressed answers
  | .gotIp _ | .disconnected _ => False
  | _ => True

theorem ebbs_of_calm {updater next : Updater} (calm : Calm updater event)
    (stepped : step tuning updater event = some next) : Ebbs updater next := by
  cases event with
  | start direct now answers =>
    cases stepped
    exact updater.beginScanning_ebbs tuning direct now answers
  | survey now answers =>
    cases stepped
    exact updater.survey_ebbs tuning now answers
  | tick pressed now answers =>
    cases stepped
    exact Updater.process_ebbs calm
  | cancel =>
    cases stepped
    exact updater.cancel_ebbs
  | scanDone | uploadEnd =>
    cases stepped
    exact ⟨rfl, Or.inl rfl, Or.inl rfl, fun here => ⟨here, rfl, rfl⟩, Or.inl⟩
  | uploadStart =>
    simp only [step, Option.ite_none_right_eq_some, Option.some.injEq] at stepped
    obtain ⟨_, rfl⟩ := stepped
    exact ⟨rfl, Or.inl rfl, Or.inl rfl, fun here => ⟨here, rfl, rfl⟩, Or.inl⟩
  | gotIp | disconnected => exact calm.elim

private theorem made_raise {updater : Updater} (flag : Option Nat)
    (made : ∀ attempt, flag = some attempt → attempt ≤ updater.attempt)
    (within : attempt ≤ updater.attempt) :
    ∀ latest, Updater.raise flag attempt = some latest → latest ≤ updater.attempt := by
  intro latest raised
  simp only [Updater.raise, Option.some.injEq] at raised
  rw [← raised]
  refine Nat.max_le.mpr ⟨within, ?_⟩
  cases flag with
  | none => exact Nat.zero_le _
  | some earlier => exact made earlier rfl

private theorem made_step {updater next : Updater} (made : Made updater)
    (stepped : step tuning updater event = some next) : Made next := by
  by_cases calm : Calm updater event
  · exact (ebbs_of_calm calm stepped).made made
  · cases event with
    | tick pressed now answers =>
      cases stepped
      rw [Updater.process_connects (Classical.not_not.mp calm)]
      exact ⟨fun attempt raised => Nat.le_succ_of_le (made.gotIp attempt raised),
        fun attempt raised => Nat.le_succ_of_le (made.disconnected attempt raised)⟩
    | gotIp attempt =>
      simp only [step, Option.ite_none_right_eq_some, Option.some.injEq] at stepped
      obtain ⟨within, rfl⟩ := stepped
      exact ⟨made_raise updater.gotIp made.gotIp within, made.disconnected⟩
    | disconnected attempt =>
      simp only [step, Option.ite_none_right_eq_some, Option.some.injEq] at stepped
      obtain ⟨within, rfl⟩ := stepped
      exact ⟨made.gotIp, made_raise updater.disconnected made.disconnected within⟩
    | _ => exact absurd trivial calm

/-- With an event of the current attempt among them, the latest is its own. -/
theorem raise_eq_iff {flag : Option Nat} {updater : Updater}
    (made : ∀ attempt, flag = some attempt → attempt ≤ updater.attempt)
    (within : attempt ≤ updater.attempt) :
    (∀ latest, Updater.raise flag attempt = some latest → latest = updater.attempt) ↔
      (attempt < updater.attempt → flag = some updater.attempt) := by
  simp only [Updater.raise, Option.some.injEq, forall_eq']
  cases flag with
  | none =>
    simp only [Option.getD_none, Nat.max_zero, reduceCtorEq, imp_false]
    omega
  | some earlier =>
    have before := made earlier rfl
    simp only [Option.getD_some, Option.some.injEq]
    omega

/-- From a state with own flags, a step leads to one exactly when it is timely. -/
theorem ownFlags_step_iff {updater : Updater} (made : Made updater) (own : OwnFlags updater) :
    (∀ next, step tuning updater event = some next → OwnFlags next) ↔ Timely updater event := by
  have calmly : Calm updater event → ∀ next, step tuning updater event = some next →
      OwnFlags next := fun calm next stepped => (ebbs_of_calm calm stepped).ownFlags own
  cases event with
  | start | survey | cancel | scanDone | uploadStart | uploadEnd =>
    exact iff_of_true (calmly trivial) trivial
  | tick pressed now answers =>
    by_cases begins : updater.connects pressed answers
    · simp only [step, Option.some.injEq, forall_eq', Timely, begins, forall_const]
      rw [Updater.process_connects begins]
      constructor
      · intro after
        obtain ⟨gotIp, disconnected⟩ := after rfl
        have none : updater.gotIp = none := by
          cases flag : updater.gotIp with
          | none => rfl
          | some attempt =>
            have bound := made.gotIp attempt flag
            have later := gotIp attempt flag
            dsimp only at later
            omega
        refine ⟨none, ?_⟩
        cases flag : updater.disconnected with
        | none => rfl
        | some attempt =>
          have bound := made.disconnected attempt flag
          have later := disconnected none attempt flag
          dsimp only at later
          omega
      · rintro ⟨gotIp, disconnected⟩ _
        simp [gotIp, disconnected]
    · exact iff_of_true (calmly begins) fun connects => absurd connects begins
  | gotIp attempt =>
    simp only [step, Option.ite_none_right_eq_some, Option.some.injEq, Timely]
    by_cases within : attempt ≤ updater.attempt
    · simp only [within, true_and, forall_eq', OwnFlags, raise_eq_iff made.gotIp within]
      refine ⟨fun after here => (after here).1, fun timely here => ⟨timely here, fun none => ?_⟩⟩
      contradiction
    · simp only [within, false_and, false_implies, implies_true, true_iff]
      exact fun _ earlier => absurd (Nat.le_of_lt earlier) within
  | disconnected attempt =>
    simp only [step, Option.ite_none_right_eq_some, Option.some.injEq, Timely]
    by_cases within : attempt ≤ updater.attempt
    · simp only [within, true_and, forall_eq', OwnFlags, raise_eq_iff made.disconnected within]
      refine ⟨fun after here earlier none => (after here).2 none earlier, fun timely here =>
        ⟨(own here).1, fun none earlier => timely here earlier none⟩⟩
    · simp only [within, false_and, false_implies, implies_true, true_iff]
      exact fun _ earlier => absurd (Nat.le_of_lt earlier) within

/-- In every state of a run, every verdict a tick can reach comes from an event of
its own attempt, exactly when the run is timely; the ticks of the run are then
judged so. -/
theorem attempts_judged_by_own_iff (tuning : OtaTuning) (events : List Event) :
    (Along (step tuning) (fun updater event => ∀ next, step tuning updater event = some next →
        ∀ pressed now answers, JudgedByOwn tuning next (.tick pressed now answers)) {} events ↔
      Along (step tuning) Timely {} events) ∧
    (Along (step tuning) Timely {} events →
      Along (step tuning) (JudgedByOwn tuning) {} events) := by
  have made : Made {} := ⟨fun _ raised => by contradiction, fun _ raised => by contradiction⟩
  have own : OwnFlags {} := fun connecting => by contradiction
  constructor
  · simp only [judged_iff]
    exact along_keeps_iff made_step ownFlags_step_iff made own events
  · have keeps : ∀ {updater event next}, Made updater ∧ OwnFlags updater → Timely updater event →
        step tuning updater event = some next → Made next ∧ OwnFlags next :=
      fun held timely stepped => ⟨made_step held.1 stepped,
        (ownFlags_step_iff held.1 held.2).mpr timely _ stepped⟩
    refine along_of_invariant keeps (fun {updater event} held => ?_) ⟨made, own⟩
    cases event with
    | tick pressed now answers => exact (judged_iff tuning updater).mpr held.2 pressed now answers
    | _ => trivial

/-- Two known networks are in range. -/
def inRange : Answers :=
  { stored := networks "lab,a\nhome,b\n".toList, records := ["lab".toList, "home".toList] }

/-- The first network times out; the disconnect that giving it up raises arrives
before the second is tried. -/
def staleDisconnect : List Event :=
  [.start false 0 inRange, .scanDone, .tick false 3000 inRange, .tick false 13000 inRange,
    .disconnected 1, .tick false 13800 inRange, .tick false 13801 inRange, .scanDone,
    .tick false 16000 inRange]

/-- The second attempt is under way, and the first one's disconnect still waits. -/
def secondAttempt : Updater :=
  { phase := .connecting
    disconnected := some 1
    candidates := inRange.stored
    candidateIndex := 1
    config := inRange.stored[1]?.map Credential.staConfig
    nextScan := 13800
    connectDeadline := 26000
    retryAt := 13800
    attempt := 2 }

/-- The second network is failed as disconnected by an event of the first. -/
theorem next_candidate_is_failed_by_last : ¬∀ events,
    Along (step {}) (JudgedByOwn {}) {} events := by
  intro every
  have ran : run (step {}) {} staleDisconnect = some secondAttempt := rfl
  have judged := along_at (every (staleDisconnect ++ [.tick false 16001 inRange])) ran
  have own : secondAttempt.disconnected = some secondAttempt.attempt := judged
  contradiction

end BallyOS.Ota
