import BallyOS.Library.Turns
import BallyOS.Ota.Entries
import BallyOS.Ota.Searching

/-! The order in which a search tries the stored networks. Each attempt is on the next one
in the file that the scan reads back, and behind the last the first comes up again. -/
namespace BallyOS.Ota
open Library Settings

/-- What a search loads is what the card holds. -/
def Event.FromCard : Event → Prop
  | .start _ _ answers => ∃ card readable, answers.stored = parseFile card readable
  | _ => True

/-- What a scan reads back are the visible networks. -/
def Event.ReadsBack (visible : Text → Bool) : Event → Prop
  | .tick _ _ answers =>
    ∀ ssid, (answers.records.take OTA_MAX_SCAN_RESULTS).contains ssid = visible ssid
  | _ => True

/-- What a scan finds are the visible networks. -/
def Event.Finds (visible : Text → Bool) : Event → Prop
  | .tick _ _ answers => ∀ ssid, answers.records.contains ssid = visible ssid
  | _ => True

/-- The stored network of the index is visible. -/
def wanted (stored : List Credential) (visible : Text → Bool) (index : Nat) : Bool :=
  stored[index]?.any fun credential => visible credential.ssid.text

/-- What the events of a run come to one by one, in order. -/
def gathered (tuning : OtaTuning) (of : Updater → Event → Option α) :
    Updater → List Event → List α
  | _, [] => []
  | updater, event :: rest =>
    (of updater event).toList ++
      match step tuning updater event with
      | some next => gathered tuning of next rest
      | none => []

/-- The candidates of the attempts that the events make. -/
def attempts (tuning : OtaTuning) : Updater → List Event → List Nat :=
  gathered tuning (attemptOf tuning)

/-- What the driver is given for the attempts. -/
def handed (tuning : OtaTuning) : Updater → List Event → List StaConfig :=
  gathered tuning (handedBy tuning)

/-- It has the network's SSID, and of the password what its field holds. -/
structure StaConfig.Names (config : StaConfig) (credential : Credential) : Prop where
  ssid : config.ssid.text = credential.ssid.text
  password : config.password.text = credential.password.text.take 63

/-- An attempt is on a candidate, and the candidates fit in their array. -/
def AttemptInBounds (tuning : OtaTuning) (updater : Updater) (event : Event) : Prop :=
  ∀ index, attemptOf tuning updater event = some index →
    index < updater.candidates.length ∧ updater.candidates.length ≤ OTA_MAX_NETWORKS

/-! ### One step -/

section Visible
variable {updater : Updater} {visible : Text → Bool} {records : List Text}
  (reads : ∀ ssid, (records.take OTA_MAX_SCAN_RESULTS).contains ssid = visible ssid)
include reads

private theorem visibleIndex_eq : updater.visibleIndex records = updater.candidateIndex +
    (updater.candidates.drop updater.candidateIndex).findIdx fun candidate =>
      visible candidate.ssid.text := by
  simp only [Updater.visibleIndex, reads]

theorem visibleIndex_skips (i : Nat) (onward : updater.candidateIndex ≤ i)
    (before : i < updater.visibleIndex records) :
    wanted updater.candidates visible i = false := by
  obtain ⟨j, rfl⟩ := Nat.exists_eq_add_of_le onward
  rw [visibleIndex_eq reads] at before
  have skipped := List.not_of_lt_findIdx (Nat.lt_of_add_lt_add_left before)
  have within : j < (updater.candidates.drop updater.candidateIndex).length :=
    Nat.lt_of_lt_of_le (Nat.lt_of_add_lt_add_left before) List.findIdx_le_length
  rw [wanted, ← List.getElem?_drop, List.getElem?_eq_getElem within]
  exact skipped

theorem visibleIndex_wanted (seen : updater.visibleIndex records < updater.candidates.length) :
    wanted updater.candidates visible (updater.visibleIndex records) = true := by
  rw [visibleIndex_eq reads] at seen ⊢
  have within : ((updater.candidates.drop updater.candidateIndex).findIdx fun candidate =>
      visible candidate.ssid.text) < (updater.candidates.drop updater.candidateIndex).length := by
    rw [List.length_drop]
    omega
  rw [wanted, ← List.getElem?_drop, List.getElem?_eq_getElem within, Option.any_some]
  exact List.findIdx_getElem (p := fun candidate : Credential => visible candidate.ssid.text)

end Visible

private theorem upNext_step {updater next : Updater} {stored : List Credential}
    {visible : Text → Bool}
    {attempt : Option Nat} {count : Nat} (searches : updater.Searches stored)
    (reads : event.ReadsBack visible) (comes : SearchStep updater next event attempt)
    (upNext : UpNext (wanted stored visible) stored.length updater.upcoming count) :
    TakesTurn (wanted stored visible) stored.length next.upcoming count attempt := by
  rw [← searches.candidates] at upNext ⊢
  cases comes with
  | waits same =>
    rw [← same] at upNext
    exact upNext
  | wraps scanning unseen first again =>
    rw [Updater.upcoming, if_pos scanning] at upNext
    rw [Updater.upcoming, if_pos again, first]
    refine upNext.wrap fun i onward before => visibleIndex_skips reads i onward ?_
    exact Nat.lt_of_lt_of_le before unseen
  | tries scanning seen chosen given left =>
    rw [Updater.upcoming, if_pos scanning] at upNext
    rw [Updater.upcoming, if_neg left, chosen]
    refine upNext.take (Nat.le_add_right _ _) seen ?_ (visibleIndex_wanted reads seen)
    exact visibleIndex_skips reads

/-! ### Runs -/

private theorem gathered_next {tuning : OtaTuning} {updater next : Updater}
    (stepped : step tuning updater event = some next) (of : Updater → Event → Option α)
    (rest : List Event) : gathered tuning of updater (event :: rest) =
      (of updater event).toList ++ gathered tuning of next rest := by
  rw [gathered, stepped]

private theorem gathered_stuck {tuning : OtaTuning} {updater : Updater}
    (stuck : step tuning updater event = none) {of : Updater → Event → Option α}
    (nothing : of updater event = none) (rest : List Event) :
    gathered tuning of updater (event :: rest) = [] := by
  rw [gathered, stuck, nothing]
  rfl

private theorem attemptOf_stuck {tuning : OtaTuning} {updater : Updater}
    (stuck : step tuning updater event = none) : attemptOf tuning updater event = none := by
  cases event with
  | gotIp attempt => rfl
  | disconnected attempt => rfl
  | uploadStart => rfl
  | start direct now answers => contradiction
  | survey now answers => contradiction
  | tick pressed now answers => contradiction
  | cancel => contradiction
  | scanDone => contradiction
  | uploadEnd => contradiction

private theorem handedBy_none {tuning : OtaTuning} {updater : Updater}
    (idle : attemptOf tuning updater event = none) : handedBy tuning updater event = none := by
  rw [handedBy, idle]

/-- An SSID that fits in the driver's field is given whole. -/
theorem names_of_short {credential : Credential} (short : credential.ssid.text.length < 32) :
    credential.staConfig.Names credential where
  ssid := by
    rw [Credential.staConfig, printInto_text credential.ssid.unended]
    exact List.take_of_length_le (Nat.le_pred_of_lt short)
  password := by rw [Credential.staConfig, printInto_text credential.password.unended]

/-- The driver is given, for every attempt, the candidate that the attempt is on. -/
theorem handed_run {tuning : OtaTuning} {stored : List Credential} {events : List Event}
    {updater : Updater} (searches : updater.Searches stored)
    (goesOn : Along (step tuning) Uncancelled updater events) :
    List.Forall₂ (fun index config => ∃ credential, stored[index]? = some credential ∧
      config = credential.staConfig) (attempts tuning updater events)
      (handed tuning updater events) := by
  induction events generalizing updater with
  | nil => exact .nil
  | cons event rest ih =>
    unfold attempts handed at ih ⊢
    cases stepped : step tuning updater event with
    | none =>
      have idle := attemptOf_stuck stepped
      rw [gathered_stuck stepped idle, gathered_stuck stepped (handedBy_none idle)]
      exact .nil
    | some next =>
      obtain ⟨still, comes⟩ := search_step searches goesOn.1 stepped
      have later := ih still (along_cons goesOn stepped)
      rw [gathered_next stepped, gathered_next stepped]
      refine List.rel_append ?_ later
      cases attempt : attemptOf tuning updater event with
      | none =>
        rw [handedBy_none attempt]
        exact .nil
      | some index =>
        obtain ⟨credential, candidate, given⟩ := handedBy_of_comes searches comes attempt stepped
        rw [given]
        exact .cons ⟨credential, candidate, rfl⟩ .nil

/-- From where `count` attempts were made, each one is on what comes up next. -/
theorem attempts_upNext {tuning : OtaTuning} {stored : List Credential} {visible : Text → Bool}
    {events : List Event} (reads : ∀ event ∈ events, event.ReadsBack visible) {updater : Updater}
    {count : Nat} (searches : updater.Searches stored)
    (goesOn : Along (step tuning) Uncancelled updater events)
    (upNext : UpNext (wanted stored visible) stored.length updater.upcoming count) :
    ∀ k index, (attempts tuning updater events)[k]? = some index →
      (turns (wanted stored visible) stored.length)[
        (count + k) % (turns (wanted stored visible) stored.length).length]? = some index := by
  induction events generalizing updater count with
  | nil =>
    intro k index taken
    simp [attempts, gathered] at taken
  | cons event rest ih =>
    have later : ∀ event ∈ rest, event.ReadsBack visible :=
      fun event member => reads event (List.mem_cons_of_mem _ member)
    cases stepped : step tuning updater event with
    | none =>
      intro k index taken
      rw [attempts, gathered_stuck stepped (attemptOf_stuck stepped)] at taken
      contradiction
    | some next =>
      obtain ⟨still, comes⟩ := search_step searches goesOn.1 stepped
      have after := upNext_step searches (reads event List.mem_cons_self) comes upNext
      have onward := along_cons goesOn stepped
      rw [attempts, gathered_next stepped]
      cases attempt : attemptOf tuning updater event with
      | none =>
        rw [attempt] at after
        exact ih later still onward after
      | some found =>
        rw [attempt] at after
        intro k index taken
        cases k with
        | zero =>
          cases taken
          exact after.1
        | succ k =>
          rw [Nat.add_comm k 1, ← Nat.add_assoc]
          exact ih later still onward after.2 k index taken

private theorem parseFile_length (card : SDCard) (readable : Bool) :
    (parseFile card readable).length ≤ OTA_MAX_NETWORKS := by
  rw [parseFile]
  split
  · exact Nat.zero_le _
  · split
    · exact List.length_take_le _ _
    · exact Nat.zero_le _

private theorem process_candidates {updater : Updater} (orderly : updater.Orderly)
    (tuning : OtaTuning)
    (pressed : Bool) (now : UInt32) (answers : Answers) :
    (updater.process tuning pressed now answers).1.candidates = updater.candidates ∨
      (updater.process tuning pressed now answers).1.candidates = [] := by
  by_cases idle : updater.phase = .idle
  · rw [Updater.process_idle tuning idle]
    exact .inl rfl
  · by_cases goesOn : updater.cancelsOn pressed = false
    · by_cases surveying : updater.phase = .scanning ∧ updater.surveyOnly = true
      · exact .inl (Updater.process_survey tuning surveying.1 surveying.2 goesOn now answers).2.1
      · exact .inl (process_search tuning (orderly.searches idle surveying) goesOn
          now answers).1.candidates
    · rcases Updater.process_cancelled tuning goesOn now answers with same | cancelled
      · rw [same]
        exact .inl rfl
      · rw [cancelled, Updater.cancel]
        split
        · exact .inl rfl
        · exact .inr rfl

private theorem beginScanning_candidates (updater : Updater) (tuning : OtaTuning) (direct : Bool)
    (now : UInt32) (answers : Answers) :
    (updater.beginScanning tuning direct now answers).candidates = updater.candidates ∨
      (updater.beginScanning tuning direct now answers).candidates = answers.stored := by
  unfold Updater.beginScanning
  split
  · split
    · dsimp only
      split
      · split <;> exact .inl rfl
      · exact .inl rfl
    · exact .inl rfl
  · split
    · exact .inl rfl
    · dsimp only
      split <;> exact .inr rfl

/-- The candidates stay in their array, and every flag means what it says. -/
structure Updater.Loaded (updater : Updater) : Prop where
  orderly : updater.Orderly
  fits : updater.candidates.length ≤ OTA_MAX_NETWORKS

private theorem loaded_step {tuning : OtaTuning} {updater next : Updater} (loaded : updater.Loaded)
    (fromCard : event.FromCard) (stepped : step tuning updater event = some next) :
    next.Loaded := by
  refine ⟨orderly_step loaded.orderly stepped, ?_⟩
  have kept : next.candidates = updater.candidates → next.candidates.length ≤ OTA_MAX_NETWORKS :=
    fun same => same ▸ loaded.fits
  cases event with
  | start direct now answers =>
    obtain ⟨card, readable, stored⟩ := fromCard
    cases stepped
    rcases beginScanning_candidates updater tuning direct now answers with same | read
    · exact kept same
    · rw [read, stored]
      exact parseFile_length card readable
  | tick pressed now answers =>
    cases stepped
    rcases process_candidates loaded.orderly tuning pressed now answers with same | none
    · exact kept same
    · rw [none]
      exact Nat.zero_le _
  | survey now answers =>
    cases stepped
    apply kept
    unfold Updater.survey
    split <;> rfl
  | cancel =>
    cases stepped
    unfold Updater.cancel
    split
    · exact loaded.fits
    · exact Nat.zero_le _
  | scanDone =>
    cases stepped
    exact loaded.fits
  | gotIp attempt =>
    obtain ⟨_, same⟩ := Option.ite_none_right_eq_some.mp stepped
    cases same
    exact loaded.fits
  | disconnected attempt =>
    obtain ⟨_, same⟩ := Option.ite_none_right_eq_some.mp stepped
    cases same
    exact loaded.fits
  | uploadStart =>
    obtain ⟨_, same⟩ := Option.ite_none_right_eq_some.mp stepped
    cases same
    exact loaded.fits
  | uploadEnd =>
    cases stepped
    exact loaded.fits

private theorem attemptOf_lt {tuning : OtaTuning} {updater : Updater} (orderly : updater.Orderly)
    (attempt : attemptOf tuning updater event = some index) :
    index < updater.candidates.length := by
  cases event with
  | tick pressed now answers =>
    by_cases idle : updater.phase = .idle
    · rw [attemptOf_tick, Updater.process_idle tuning idle] at attempt
      contradiction
    · by_cases goesOn : updater.cancelsOn pressed = false
      · by_cases surveying : updater.phase = .scanning ∧ updater.surveyOnly = true
        · rw [attemptOf_tick, (Updater.process_survey tuning surveying.1 surveying.2 goesOn now
            answers).1] at attempt
          contradiction
        · have comes := (process_search tuning (orderly.searches idle surveying)
            goesOn now answers).2
          rw [attempt] at comes
          cases comes with
          | tries scanning seen chosen given left => exact seen
      · rw [attemptOf_tick] at attempt
        rcases Updater.process_cancelled tuning goesOn now answers with same | same <;>
          rw [same] at attempt <;> contradiction
  | _ => contradiction

theorem searches_of_start {updater : Updater} (orderly : updater.Orderly)
    (idle : updater.phase = .idle) (returned : updater.startReturns answers = true)
    (tuning : OtaTuning) (direct : Bool) (now : UInt32) :
    (updater.beginScanning tuning direct now answers).Searches answers.stored ∧
      (updater.beginScanning tuning direct now answers).upcoming = 0 := by
  obtain ⟨mounted, some⟩ : answers.mounted = true ∧ answers.stored ≠ [] := by
    simpa [Updater.startReturns, idle] using returned
  unfold Updater.beginScanning
  rw [if_neg (not_not_intro idle), if_neg (by simp [mounted])]
  dsimp only
  rw [if_neg some]
  exact ⟨⟨rfl, by simp, orderly.idle idle⟩, rfl⟩

/-- In every run the attempts are in bounds, and from every start of a search until it is
cancelled they go through the stored networks that its scans read back, in turn; and for
each the driver is given its network, if the SSID fits. -/
theorem tries_networks_in_turn (tuning : OtaTuning) {events : List Event}
    (fromCard : ∀ event ∈ events, event.FromCard) :
    Along (step tuning) (AttemptInBounds tuning) {} events ∧
      ∀ (first rest : List Event) (direct : Bool) (now : UInt32) (answers : Answers)
        (before : Updater) (visible : Text → Bool),
        events = first ++ .start direct now answers :: rest →
        run (step tuning) {} first = some before → before.phase = .idle →
        before.startReturns answers = true →
        Along (step tuning) Uncancelled (before.beginScanning tuning direct now answers) rest →
        (∀ event ∈ rest, event.ReadsBack visible) →
        InTurn (wanted answers.stored visible) answers.stored.length
            (attempts tuning (before.beginScanning tuning direct now answers) rest) ∧
          List.Forall₂ (fun index config => ∃ credential,
              answers.stored[index]? = some credential ∧
                (credential.ssid.text.length < 32 → config.Names credential))
            (attempts tuning (before.beginScanning tuning direct now answers) rest)
            (handed tuning (before.beginScanning tuning direct now answers) rest) := by
  constructor
  · have boot : Updater.Loaded {} :=
      ⟨fun survey => absurd survey Bool.false_ne_true, Nat.zero_le _⟩
    have meets : Along (step tuning) (fun _ event => event.FromCard) {} events :=
      along_of_mem (fun event member _ => fromCard event member) _
    refine along_of_invariant loaded_step ?_ boot meets
    intro updater event loaded index attempt
    exact ⟨attemptOf_lt loaded.orderly attempt, loaded.fits⟩
  · intro first rest direct now answers before visible _ ran idle returned goesOn reads
    obtain ⟨searches, zero⟩ :=
      searches_of_start (orderly_run ran) idle returned tuning direct now
    have upNext : UpNext (wanted answers.stored visible) answers.stored.length
        (before.beginScanning tuning direct now answers).upcoming 0 := by
      rw [zero]
      exact UpNext.first _ _
    refine ⟨fun k index taken => ?_, (handed_run searches goesOn).imp ?_⟩
    · have turn := attempts_upNext reads searches goesOn upNext k index taken
      rw [Nat.zero_add] at turn
      exact turn
    · rintro index config ⟨credential, candidate, rfl⟩
      exact ⟨credential, candidate, names_of_short⟩

/-- Three stored networks, of which two are visible. -/
def twoOfThree : Answers where
  stored := networks "lab,a\nhome,b\nvan,c\n".toList
  records := ["van".toList, "lab".toList]

/-- An attempt that the driver ends, and the pause after it. -/
def failedAttempt (attempt : Nat) : List Event :=
  [.scanDone, .tick false 0 twoOfThree, .disconnected attempt, .tick false 0 twoOfThree,
    .tick false 800 twoOfThree]

def failedAttempts : List Event :=
  failedAttempt 1 ++ failedAttempt 2 ++ [.scanDone, .tick false 0 twoOfThree] ++ failedAttempt 3

private theorem mem_failedAttempts (member : event ∈ failedAttempts) :
    event = .scanDone ∨ (∃ now, event = .tick false now twoOfThree) ∨
      ∃ attempt, event = .disconnected attempt := by
  simp only [failedAttempts, failedAttempt, List.cons_append, List.nil_append, List.mem_cons,
    List.not_mem_nil, or_false] at member
  rcases member with rfl | rfl | rfl | rfl | rfl | rfl | rfl | rfl | rfl | rfl | rfl | rfl | rfl |
    rfl | rfl | rfl | rfl <;> simp

theorem tries_networks_in_turn_failing :
    (handed {} (Updater.beginScanning {} {} false 0 twoOfThree) failedAttempts).map
        (fun config => (config.ssid.text, config.password.text)) =
      [("lab".toList, ['a']), ("van".toList, ['c']), ("lab".toList, ['a'])] ∧
      InTurn (wanted twoOfThree.stored (twoOfThree.records.contains ·)) twoOfThree.stored.length
        (attempts {} (Updater.beginScanning {} {} false 0 twoOfThree) failedAttempts) ∧
      List.Forall₂ (fun index config => ∃ credential,
          twoOfThree.stored[index]? = some credential ∧
            (credential.ssid.text.length < 32 → config.Names credential))
        (attempts {} (Updater.beginScanning {} {} false 0 twoOfThree) failedAttempts)
        (handed {} (Updater.beginScanning {} {} false 0 twoOfThree) failedAttempts) := by
  have fromCard : ∀ event ∈ .start false 0 twoOfThree :: failedAttempts, event.FromCard := by
    intro event member
    rcases List.mem_cons.mp member with rfl | later
    · exact ⟨⟨true, some "lab,a\nhome,b\nvan,c\n".toList⟩, true, rfl⟩
    · rcases mem_failedAttempts later with rfl | ⟨now, rfl⟩ | ⟨attempt, rfl⟩ <;> trivial
  have quiet : ∀ event ∈ failedAttempts, ∀ updater, Uncancelled updater event := by
    intro event member updater
    rcases mem_failedAttempts member with rfl | ⟨now, rfl⟩ | ⟨attempt, rfl⟩
    · trivial
    · rfl
    · trivial
  have reads : ∀ event ∈ failedAttempts, event.ReadsBack (twoOfThree.records.contains ·) := by
    intro event member
    rcases mem_failedAttempts member with rfl | ⟨now, rfl⟩ | ⟨attempt, rfl⟩
    · trivial
    · exact fun ssid => rfl
    · trivial
  refine ⟨by decide, ?_⟩
  exact (tries_networks_in_turn {} fromCard).2 [] failedAttempts false 0 twoOfThree {} _ rfl rfl
    rfl rfl (along_of_mem quiet _) reads

/-- A scan that finds twenty access points of one network before another's. -/
def crowded : Answers :=
  { stored := networks "lab,a\nhome,b\n".toList
    records := List.replicate 20 "home".toList ++ ["lab".toList] }

def crowdedScan : List Event := [.scanDone, .tick false 0 crowded]

/-- The network behind the twentieth record is never tried. -/
theorem network_out_of_records_is_skipped : ¬ ∀ (tuning : OtaTuning) (events : List Event),
    (∀ event ∈ events, event.FromCard) →
      ∀ (first rest : List Event) (direct : Bool) (now : UInt32) (answers : Answers)
        (before : Updater) (visible : Text → Bool),
        events = first ++ .start direct now answers :: rest →
        run (step tuning) {} first = some before → before.phase = .idle →
        before.startReturns answers = true →
        Along (step tuning) Uncancelled (before.beginScanning tuning direct now answers) rest →
        (∀ event ∈ rest, event.Finds visible) →
        InTurn (wanted answers.stored visible) answers.stored.length
          (attempts tuning (before.beginScanning tuning direct now answers) rest) := by
  intro always
  have scan : ∀ event ∈ crowdedScan, event = .scanDone ∨ event = .tick false 0 crowded := by
    intro event member
    simpa [crowdedScan] using member
  have fromCard : ∀ event ∈ .start false 0 crowded :: crowdedScan, event.FromCard := by
    intro event member
    rcases List.mem_cons.mp member with rfl | later
    · exact ⟨⟨true, some "lab,a\nhome,b\n".toList⟩, true, rfl⟩
    · rcases scan event later with rfl | rfl <;> trivial
  have quiet : ∀ event ∈ crowdedScan, ∀ updater, Uncancelled updater event := by
    intro event member updater
    rcases scan event member with rfl | rfl
    · trivial
    · rfl
  have finds : ∀ event ∈ crowdedScan, event.Finds (crowded.records.contains ·) := by
    intro event member
    rcases scan event member with rfl | rfl
    · trivial
    · exact fun ssid => rfl
  have inTurn := always {} _ fromCard [] _ false 0 crowded {} _ rfl rfl rfl rfl
    (along_of_mem quiet _) finds
  exact absurd (inTurn 0 1 (by decide)) (by decide)

end BallyOS.Ota
