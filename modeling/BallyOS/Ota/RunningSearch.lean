import BallyOS.Library.LeadsTo
import BallyOS.Ota.Rounds

/-! What a start that reports success comes to. A search that is not cancelled never ends
and comes to an attempt again and again until it is served; but a start that meets the scan
of a survey is told the same, and is forgotten when that scan is done. -/
namespace BallyOS.Ota
open Library Settings

/-- The tick asks the driver for a scan. -/
def Asks (updater : Updater) : Event → Prop
  | .tick _ now _ => updater.phase = .scanning ∧ updater.scanDone = false ∧
      updater.scanInFlight = false ∧ due now updater.nextScan = true
  | _ => False

def Event.grantsScan : Event → Bool
  | .tick _ _ answers => answers.scanStarted
  | _ => false

/-- A tick at which a deadline has come. -/
def Event.dueAt (deadline : UInt32) : Event → Prop
  | .tick _ now _ => due now deadline = true
  | _ => False

/-- An endless run in which nobody cancels, the clock comes to every deadline, every scan
comes to its end, and the driver does not refuse scans for ever. -/
structure Fair {tuning : OtaTuning} (visible : Text → Bool) (endless : Endless (step tuning)) :
    Prop where
  uncancelled : ∀ n, Uncancelled (endless.states n) (endless.events n)
  reads : ∀ n, (endless.events n).ReadsBack visible
  clock : ∀ deadline, Often fun n => (endless.events n).dueAt deadline
  scans : ∀ n, (endless.states n).scanInFlight = true ∧ (endless.states n).scanDone = false →
    ∃ m, n ≤ m ∧ endless.events m = .scanDone
  driver : (Often fun n => Asks (endless.states n) (endless.events n)) →
    Often fun n => Asks (endless.states n) (endless.events n) ∧
      (endless.events n).grantsScan = true

/-- The event makes an attempt on a candidate that is visible, and gives it to the driver. -/
def TriesVisible (tuning : OtaTuning) (visible : Text → Bool) (updater : Updater)
    (event : Event) : Prop :=
  ∃ index, attemptOf tuning updater event = some index ∧
    wanted updater.candidates visible index = true ∧
    ∃ credential, updater.candidates[index]? = some credential ∧
      handedBy tuning updater event = some credential.staConfig

/-- Nothing but a cancel ends the search, and with a candidate that is visible every fair
run comes to attempts on such, again and again unless one is being served. -/
structure RunsSearch (tuning : OtaTuning) (updater : Updater) : Prop where
  lasts : ∀ events after, Along (step tuning) Uncancelled updater events →
    run (step tuning) updater events = some after → after.phase ≠ .idle
  attempts : ∀ (visible : Text → Bool) (endless : Endless (step tuning)),
    endless.states 0 = updater → Fair visible endless →
    (∃ candidate ∈ updater.candidates, visible candidate.ssid.text = true) →
    Often fun n => TriesVisible tuning visible (endless.states n) (endless.events n) ∨
      (endless.states n).phase = .serving

/-! ### Steps -/

/-- The step leaves the search where it is. -/
structure SamePlace (before after : Updater) : Prop where
  phase : after.phase = before.phase
  candidateIndex : after.candidateIndex = before.candidateIndex
  scanInFlight : after.scanInFlight = before.scanInFlight
  nextScan : after.nextScan = before.nextScan
  connectDeadline : after.connectDeadline = before.connectDeadline
  retryAt : after.retryAt = before.retryAt
  scanDone : before.scanDone = true → after.scanDone = true

private theorem SamePlace.refl (updater : Updater) : SamePlace updater updater :=
  ⟨rfl, rfl, rfl, rfl, rfl, rfl, id⟩

/-- Short of serving, only ticks move a search. -/
theorem samePlace_step {tuning : OtaTuning} {updater next : Updater}
    (active : updater.phase ≠ .idle) (away : updater.phase ≠ .serving)
    (goesOn : Uncancelled updater event) (stepped : step tuning updater event = some next)
    (still : ∀ pressed now answers, event ≠ .tick pressed now answers) :
    SamePlace updater next := by
  cases event with
  | tick pressed now answers => exact absurd rfl (still pressed now answers)
  | cancel => exact absurd goesOn id
  | start direct now answers =>
    cases stepped
    unfold Updater.beginScanning
    dsimp only
    rw [if_pos active, if_neg away]
    split
    · exact ⟨rfl, rfl, rfl, rfl, rfl, rfl, id⟩
    · exact SamePlace.refl updater
  | survey now answers =>
    cases stepped
    rw [Updater.survey, if_pos active]
    exact SamePlace.refl updater
  | scanDone =>
    cases stepped
    exact ⟨rfl, rfl, rfl, rfl, rfl, rfl, fun _ => rfl⟩
  | gotIp attempt =>
    obtain ⟨_, same⟩ := Option.ite_none_right_eq_some.mp stepped
    cases same
    exact ⟨rfl, rfl, rfl, rfl, rfl, rfl, id⟩
  | disconnected attempt =>
    obtain ⟨_, same⟩ := Option.ite_none_right_eq_some.mp stepped
    cases same
    exact ⟨rfl, rfl, rfl, rfl, rfl, rfl, id⟩
  | uploadStart =>
    obtain ⟨_, same⟩ := Option.ite_none_right_eq_some.mp stepped
    cases same
    exact ⟨rfl, rfl, rfl, rfl, rfl, rfl, id⟩
  | uploadEnd =>
    cases stepped
    exact ⟨rfl, rfl, rfl, rfl, rfl, rfl, id⟩

/-- A step of a search that scans and has no scan to look at. -/
theorem unflagged_step {tuning : OtaTuning} {updater next : Updater}
    (scanning : updater.phase = .scanning) (unflagged : updater.scanDone = false)
    (goesOn : Uncancelled updater event) (stepped : step tuning updater event = some next) :
    next.phase = .scanning ∧ next.candidateIndex = updater.candidateIndex ∧
      (Asks updater event → next.scanInFlight = event.grantsScan) ∧
      (¬Asks updater event → next.scanInFlight = updater.scanInFlight ∧
        next.nextScan = updater.nextScan) := by
  by_cases ticks : ∃ pressed now answers, event = .tick pressed now answers
  · obtain ⟨pressed, now, answers, rfl⟩ := ticks
    cases stepped
    rw [Updater.process_scanning tuning scanning goesOn]
    unfold Updater.processScanning
    rw [if_neg (by simp [unflagged])]
    split
    · rename_i asks
      refine ⟨scanning, rfl, fun _ => rfl, fun quiet => ?_⟩
      exact absurd ⟨scanning, unflagged, asks.1, asks.2⟩ quiet
    · rename_i waits
      exact ⟨scanning, rfl, fun asks => absurd ⟨asks.2.2.1, asks.2.2.2⟩ waits,
        fun _ => ⟨rfl, rfl⟩⟩
  · have place := samePlace_step (by simp [scanning]) (by simp [scanning]) goesOn stepped
      fun pressed now answers same => ticks ⟨pressed, now, answers, same⟩
    refine ⟨place.phase.trans scanning, place.candidateIndex, fun asks => ?_,
      fun _ => ⟨place.scanInFlight, place.nextScan⟩⟩
    cases event with
    | tick pressed now answers => exact absurd ⟨pressed, now, answers, rfl⟩ ticks
    | _ => exact absurd asks id

/-- The tick that looks at a scan makes an attempt, or begins again at the first candidate. -/
theorem flagged_tick {tuning : OtaTuning} {updater : Updater} {stored : List Credential}
    (searches : updater.Searches stored) (scanning : updater.phase = .scanning)
    (flagged : updater.scanDone = true) (goesOn : updater.cancelsOn pressed = false)
    (now : UInt32) (answers : Answers) :
    updater.visibleIndex answers.records < updater.candidates.length ∧
        attemptOf tuning updater (.tick pressed now answers) =
          some (updater.visibleIndex answers.records) ∨
      updater.candidates.length ≤ updater.visibleIndex answers.records ∧
        (updater.process tuning pressed now answers).1.phase = .scanning ∧
        (updater.process tuning pressed now answers).1.candidateIndex = 0 := by
  have taken : Updater.Searches { updater with scanDone := false } stored :=
    ⟨searches.candidates, searches.active, searches.search⟩
  have handled : updater.process tuning pressed now answers =
      Updater.handleScanDone { updater with scanDone := false } tuning now answers := by
    rw [Updater.process_scanning tuning scanning goesOn, Updater.processScanning, if_pos flagged]
  rw [attemptOf_tick, handled]
  obtain ⟨-, ⟨unseen, report, first, same⟩ | ⟨seen, report, chosen, left⟩⟩ :=
    Updater.handleScanDone_search tuning taken now answers
  · exact .inr ⟨unseen, same.trans scanning, first⟩
  · refine .inl ⟨seen, ?_⟩
    rcases report with report | report <;> rw [report, chosen] <;> rfl

private theorem connecting_tick {tuning : OtaTuning} {updater : Updater}
    (connecting : updater.phase = .connecting) (goesOn : updater.cancelsOn pressed = false)
    (now : UInt32) (answers : Answers) :
    (updater.process tuning pressed now answers).1.phase = .connectFailed ∨
      (updater.process tuning pressed now answers).1.phase = .serving ∨
      due now updater.connectDeadline = false ∧
        (updater.process tuning pressed now answers).1 = updater := by
  rw [Updater.process_connecting tuning connecting goesOn]
  unfold Updater.processConnecting
  dsimp only
  split
  · split
    · exact .inr (.inl rfl)
    · split
      · exact .inr (.inl rfl)
      · exact .inl rfl
  · split
    · exact .inl rfl
    · split
      · exact .inl rfl
      · rename_i early
        exact .inr (.inr ⟨Bool.eq_false_iff.mpr early, rfl⟩)

private theorem Event.dueAt.tick {event : Event} {deadline : UInt32} (comes : event.dueAt deadline)
    :
    ∃ pressed now answers, event = .tick pressed now answers := by
  cases event with
  | tick pressed now answers => exact ⟨pressed, now, answers, rfl⟩
  | _ => exact absurd comes id

private theorem Asks.place {updater : Updater} (asks : Asks updater event) :
    updater.phase = .scanning ∧ updater.scanInFlight = false := by
  cases event with
  | tick pressed now answers => exact ⟨asks.1, asks.2.2.1⟩
  | _ => exact absurd asks id

/-! ### Progress -/

section Progress
variable {tuning : OtaTuning} {visible : Text → Bool} {stored : List Credential}

/-- The search scans for the candidate `i` and those behind it. -/
def ScansFrom (endless : Endless (step tuning)) (i n : Nat) : Prop :=
  (endless.states n).phase = .scanning ∧ (endless.states n).candidateIndex = i

/-- It has a scan to look at, and looks. -/
def LooksFrom (endless : Endless (step tuning)) (i n : Nat) : Prop :=
  ScansFrom endless i n ∧ (endless.states n).scanDone = true ∧
    ∃ pressed now answers, endless.events n = .tick pressed now answers

variable {endless : Endless (step tuning)} (fair : Fair visible endless)
include fair

private theorem often_dueAt (deadline : UInt32) :
    LeadsTo p fun n => (endless.events n).dueAt deadline := (fair.clock deadline).leadsTo

private theorem flagged_leadsTo (i : Nat) :
    LeadsTo (fun n => ScansFrom endless i n ∧ (endless.states n).scanDone = true)
      (LooksFrom endless i) := by
  refine leadsTo_of_helps ?_ ?_ (often_dueAt fair 0)
  · rintro n ⟨scans, flagged⟩
    by_cases ticks : ∃ pressed now answers, endless.events n = .tick pressed now answers
    · exact .inl ⟨scans, flagged, ticks⟩
    · have place := samePlace_step (by simp [scans.1]) (by simp [scans.1]) (fair.uncancelled n)
        (endless.steps n) fun pressed now answers same => ticks ⟨pressed, now, answers, same⟩
      exact .inr ⟨⟨place.phase.trans scans.1, place.candidateIndex.trans scans.2⟩,
        place.scanDone flagged⟩
  · rintro n ⟨scans, flagged⟩ comes
    exact ⟨scans, flagged, comes.tick⟩

/-- One step on, with no scan to look at. -/
theorem unflagged_next (scans : ScansFrom endless i n)
    (unflagged : (endless.states n).scanDone = false) :
    ScansFrom endless i (n + 1) ∧
      (Asks (endless.states n) (endless.events n) →
        (endless.states (n + 1)).scanInFlight = (endless.events n).grantsScan) ∧
      (¬Asks (endless.states n) (endless.events n) →
        (endless.states (n + 1)).scanInFlight = (endless.states n).scanInFlight ∧
          (endless.states (n + 1)).nextScan = (endless.states n).nextScan) := by
  obtain ⟨scanning, same, granted, waits⟩ :=
    unflagged_step scans.1 unflagged (fair.uncancelled n) (endless.steps n)
  exact ⟨⟨scanning, same.trans scans.2⟩, granted, waits⟩

private theorem inFlight_leadsTo (i : Nat) :
    LeadsTo (fun n => ScansFrom endless i n ∧ (endless.states n).scanInFlight = true)
      (LooksFrom endless i) := by
  have flag : LeadsTo
      (fun n => ScansFrom endless i n ∧ (endless.states n).scanInFlight = true ∧
        (endless.states n).scanDone = false)
      fun n => ScansFrom endless i (n + 1) ∧ (endless.states (n + 1)).scanDone = true := by
    refine leadsTo_of_helps ?_ ?_ fun n here => fair.scans n here.2
    · rintro n ⟨scans, inFlight, unflagged⟩
      obtain ⟨onward, -, waits⟩ := unflagged_next fair scans unflagged
      have quiet : ¬Asks (endless.states n) (endless.events n) :=
        fun asks => absurd (asks.place.2.symm.trans inFlight) Bool.false_ne_true
      cases flagged : (endless.states (n + 1)).scanDone with
      | true => exact .inl ⟨onward, rfl⟩
      | false => exact .inr ⟨onward, (waits quiet).1.trans inFlight, rfl⟩
    · rintro n ⟨scans, -, unflagged⟩ done
      have next := endless.steps n
      rw [done] at next
      have raised := congrArg Updater.scanDone (Option.some.inj next)
      exact ⟨(unflagged_next fair scans unflagged).1, raised.symm⟩
  have looks := flagged_leadsTo fair i
  rintro n ⟨scans, inFlight⟩
  cases flagged : (endless.states n).scanDone with
  | true => exact looks n ⟨scans, flagged⟩
  | false =>
    obtain ⟨m, later, raised⟩ := flag n ⟨scans, inFlight, flagged⟩
    obtain ⟨k, after, looking⟩ := looks (m + 1) raised
    exact ⟨k, Nat.le_trans (Nat.le_succ_of_le later) after, looking⟩

/-- Without a scan in flight it asks for one until the driver begins it. -/
theorem idle_leadsTo (i : Nat) :
    LeadsTo (fun n => ScansFrom endless i n ∧ (endless.states n).scanInFlight = false)
      (LooksFrom endless i) := by
  have begun : LeadsTo
      (fun n => ScansFrom endless i n ∧ (endless.states n).scanInFlight = false)
      fun n => (ScansFrom endless i n ∧ (endless.states n).scanDone = true) ∨
        (ScansFrom endless i (n + 1) ∧ (endless.states (n + 1)).scanInFlight = true) := by
    refine leadsTo_of_absurd ?_ fun n waits => Classical.byContradiction fun never => ?_
    · rintro n ⟨scans, inFlight⟩
      cases flagged : (endless.states n).scanDone with
      | true => exact .inl (.inl ⟨scans, rfl⟩)
      | false =>
        have onward := (unflagged_next fair scans flagged).1
        cases flight : (endless.states (n + 1)).scanInFlight with
        | true => exact .inl (.inr ⟨onward, rfl⟩)
        | false => exact .inr ⟨onward, rfl⟩
    · have unflagged : ∀ m, n ≤ m → (endless.states m).scanDone = false := fun m later =>
        Bool.eq_false_iff.mpr fun flagged => never ⟨m, later, .inl ⟨(waits m later).1, flagged⟩⟩
      have asks : Often fun m => Asks (endless.states m) (endless.events m) := by
        intro k
        have asking : LeadsTo
            (fun m => n ≤ m ∧
              (endless.states m).nextScan = (endless.states (max n k)).nextScan)
            fun m => Asks (endless.states m) (endless.events m) := by
          refine leadsTo_of_helps ?_ ?_ (often_dueAt fair (endless.states (max n k)).nextScan)
          · rintro m ⟨later, same⟩
            by_cases asks : Asks (endless.states m) (endless.events m)
            · exact .inl asks
            · have next := unflagged_next fair (waits m later).1 (unflagged m later)
              exact .inr ⟨Nat.le_succ_of_le later, (next.2.2 asks).2.trans same⟩
          · rintro m ⟨later, same⟩ comes
            obtain ⟨pressed, now, answers, event⟩ := comes.tick
            rw [event] at comes ⊢
            exact ⟨(waits m later).1.1, unflagged m later, (waits m later).2, same ▸ comes⟩
        obtain ⟨m, later, asks⟩ := asking (max n k) ⟨Nat.le_max_left n k, rfl⟩
        exact ⟨m, Nat.le_trans (Nat.le_max_right n k) later, asks⟩
      obtain ⟨m, later, asked, granted⟩ := fair.driver asks n
      have next := unflagged_next fair (waits m later).1 (unflagged m later)
      exact never ⟨m, later, .inr ⟨next.1, (next.2.1 asked).trans granted⟩⟩
  refine begun.trans (LeadsTo.or (flagged_leadsTo fair i) ?_)
  exact (LeadsTo.of_next (leadsTo_of_imp fun _ => id)).trans (inFlight_leadsTo fair i)

private theorem scanning_leadsTo (i : Nat) : LeadsTo (ScansFrom endless i) (LooksFrom endless i) :=
    by
  intro n scans
  cases inFlight : (endless.states n).scanInFlight with
  | true => exact inFlight_leadsTo fair i n ⟨scans, inFlight⟩
  | false => exact idle_leadsTo fair i n ⟨scans, inFlight⟩

variable (searches : ∀ n, (endless.states n).Searches stored)
include searches

/-- A look at a scan is an attempt on what it shows, or begins again at the first. -/
theorem looks_step (looks : LooksFrom endless i n) :
    TriesVisible tuning visible (endless.states n) (endless.events n) ∨
      ScansFrom endless 0 (n + 1) ∧ ∀ j, i ≤ j → j < stored.length →
        wanted stored visible j = false := by
  obtain ⟨⟨scanning, index⟩, flagged, pressed, now, answers, event⟩ := looks
  have goesOn := fair.uncancelled n
  have reads := fair.reads n
  have next := endless.steps n
  rw [event] at goesOn reads next ⊢
  have next := Option.some.inj next
  rw [← (searches n).candidates]
  rcases flagged_tick (searches n) scanning flagged goesOn now answers with
    ⟨seen, attempt⟩ | ⟨unseen, again, first⟩
  · have given := handedBy_of_comes ⟨rfl, (searches n).active, (searches n).search⟩
      (search_step (searches n) goesOn rfl).2 attempt rfl
    exact .inl ⟨_, attempt, visibleIndex_wanted reads seen, given⟩
  · refine .inr ⟨⟨next ▸ again, next ▸ first⟩, fun j onward before => ?_⟩
    exact visibleIndex_skips reads j (index ▸ onward) (Nat.lt_of_lt_of_le before unseen)

private theorem scanning_tries (seen : ∃ candidate ∈ stored, visible candidate.ssid.text = true)
    (i : Nat) :
    LeadsTo (ScansFrom endless i)
      fun n => TriesVisible tuning visible (endless.states n) (endless.events n) := by
  have first : LeadsTo (ScansFrom endless 0)
      fun n => TriesVisible tuning visible (endless.states n) (endless.events n) := by
    refine (scanning_leadsTo fair 0).trans (leadsTo_of_imp fun n looks => ?_)
    rcases looks_step fair searches looks with tries | ⟨-, unseen⟩
    · exact tries
    · obtain ⟨ssid, member, shows⟩ := seen
      obtain ⟨j, within, rfl⟩ := List.mem_iff_getElem.mp member
      have unwanted := unseen j (Nat.zero_le j) within
      rw [wanted, List.getElem?_eq_getElem within, Option.any_some, shows] at unwanted
      contradiction
  refine (scanning_leadsTo fair i).trans fun n looks => ?_
  rcases looks_step fair searches looks with tries | ⟨again, -⟩
  · exact ⟨n, Nat.le_refl n, tries⟩
  · obtain ⟨m, later, tries⟩ := first (n + 1) again
    exact ⟨m, Nat.le_of_succ_le later, tries⟩

omit searches in
private theorem failed_leadsTo : LeadsTo (fun n => (endless.states n).phase = .connectFailed)
    fun n => (endless.states n).phase = .scanning := by
  have ended (deadline : UInt32) : LeadsTo
      (fun n => (endless.states n).phase = .connectFailed ∧
        (endless.states n).retryAt = deadline)
      fun n => (endless.states (n + 1)).phase = .scanning := by
    refine leadsTo_of_step ?_ (often_dueAt fair deadline)
    rintro n ⟨failed, rfl⟩
    have goesOn := fair.uncancelled n
    have next := endless.steps n
    by_cases ticks : ∃ pressed now answers, endless.events n = .tick pressed now answers
    · obtain ⟨pressed, now, answers, event⟩ := ticks
      rw [event] at goesOn next ⊢
      have next := Option.some.inj next
      rw [Updater.process_failed tuning failed goesOn] at next
      by_cases come : due now (endless.states n).retryAt = true
      · rw [if_pos come] at next
        exact .inl (next ▸ rfl)
      · rw [if_neg come] at next
        exact .inr ⟨come, next ▸ ⟨failed, rfl⟩⟩
    · have place := samePlace_step (by simp [failed]) (by simp [failed]) goesOn next
        fun pressed now answers same => ticks ⟨pressed, now, answers, same⟩
      exact .inr ⟨fun comes => ticks comes.tick, place.phase.trans failed, place.retryAt⟩
  intro n failed
  exact (ended (endless.states n).retryAt).of_next n ⟨failed, rfl⟩

omit searches in
private theorem connecting_leadsTo : LeadsTo (fun n => (endless.states n).phase = .connecting)
    fun n => (endless.states n).phase = .connectFailed ∨ (endless.states n).phase = .serving := by
  have ended (deadline : UInt32) : LeadsTo
      (fun n => (endless.states n).phase = .connecting ∧
        (endless.states n).connectDeadline = deadline)
      fun n => (endless.states (n + 1)).phase = .connectFailed ∨
        (endless.states (n + 1)).phase = .serving := by
    refine leadsTo_of_step ?_ (often_dueAt fair deadline)
    rintro n ⟨connecting, rfl⟩
    have goesOn := fair.uncancelled n
    have next := endless.steps n
    by_cases ticks : ∃ pressed now answers, endless.events n = .tick pressed now answers
    · obtain ⟨pressed, now, answers, event⟩ := ticks
      rw [event] at goesOn next ⊢
      rw [← Option.some.inj next]
      rcases connecting_tick connecting goesOn now answers with failed | served | ⟨early, stays⟩
      · exact .inl (.inl failed)
      · exact .inl (.inr served)
      · rw [stays]
        exact .inr ⟨Bool.eq_false_iff.mp early, connecting, rfl⟩
    · have place := samePlace_step (by simp [connecting]) (by simp [connecting]) goesOn next
        fun pressed now answers same => ticks ⟨pressed, now, answers, same⟩
      exact .inr ⟨fun comes => ticks comes.tick, place.phase.trans connecting,
        place.connectDeadline⟩
  intro n connecting
  have ends := LeadsTo.of_next (q := fun n => (endless.states n).phase = .connectFailed ∨
    (endless.states n).phase = .serving) (ended (endless.states n).connectDeadline)
  exact ends n ⟨connecting, rfl⟩

private theorem often_tries (seen : ∃ candidate ∈ stored, visible candidate.ssid.text = true) :
    Often fun n => TriesVisible tuning visible (endless.states n) (endless.events n) ∨
      (endless.states n).phase = .serving := by
  have scanning : LeadsTo (fun n => (endless.states n).phase = .scanning)
      fun n => TriesVisible tuning visible (endless.states n) (endless.events n) ∨
        (endless.states n).phase = .serving := by
    intro n scans
    obtain ⟨m, later, tries⟩ := scanning_tries fair searches seen _ n ⟨scans, rfl⟩
    exact ⟨m, later, .inl tries⟩
  have failed := (failed_leadsTo fair).trans scanning
  have connecting := (connecting_leadsTo fair).trans
    (failed.or (leadsTo_of_imp fun n served => .inr served))
  intro n
  cases phase : (endless.states n).phase with
  | idle => exact absurd phase (searches n).active
  | scanning => exact scanning n phase
  | connecting => exact connecting n phase
  | connectFailed => exact failed n phase
  | serving => exact ⟨n, Nat.le_refl n, .inr phase⟩

end Progress

/-! ### The start -/

private theorem runs_of_searches {tuning : OtaTuning} {updater : Updater} {stored : List Credential}
    (searches : updater.Searches stored) : RunsSearch tuning updater := by
  constructor
  · intro events after goesOn ran
    have still := run_invariant_along (fun searches goesOn stepped =>
      (search_step searches goesOn stepped).1) searches goesOn ran
    exact still.active
  · intro visible endless begins fair seen
    have always : ∀ n, (endless.states n).Searches stored := by
      intro n
      induction n with
      | zero => exact begins ▸ searches
      | succ n ih => exact (search_step ih (fair.uncancelled n) (endless.steps n)).1
    exact often_tries fair always (searches.candidates ▸ seen)

/-- A scan for the survey ends in idle, whoever started a search meanwhile. -/
theorem forgets_of_survey {tuning : OtaTuning} {updater : Updater}
    (scanning : updater.phase = .scanning) (survey : updater.surveyOnly = true) :
    ¬RunsSearch tuning updater := by
  intro runs
  have ended : run (step tuning) updater [.scanDone, .tick false 0 {}] = some { updater with
      scanDone := false
      scanInFlight := false
      surveyOnly := false
      phase := .idle } := by
    simp [run, step, Updater.process, Updater.cancelsOn, Updater.processScanning,
      Updater.handleScanDone, scanning, survey]
  have quiet : ∀ event ∈ [Event.scanDone, .tick false 0 {}], ∀ updater,
      Uncancelled updater event := by
    intro event member updater
    simp only [List.mem_cons, List.not_mem_nil, or_false] at member
    rcases member with rfl | rfl
    · trivial
    · rfl
  exact runs.lasts _ _ (along_of_mem quiet updater) ended rfl

private theorem beginScanning_survey {tuning : OtaTuning} {updater : Updater}
    (scanning : updater.phase = .scanning) (direct : Bool) (now : UInt32) (answers : Answers) :
    (updater.beginScanning tuning direct now answers).phase = .scanning ∧
      (updater.beginScanning tuning direct now answers).surveyOnly = updater.surveyOnly := by
  unfold Updater.beginScanning
  dsimp only
  have active : updater.phase ≠ .idle := by simp [scanning]
  have away : updater.phase ≠ .serving := by simp [scanning]
  rw [if_pos active, if_neg away]
  split
  · exact ⟨scanning, rfl⟩
  · exact ⟨scanning, rfl⟩

/-- From every state after boot: a start that reports success is a running search exactly if
it does not meet the scan of a survey. -/
theorem start_runs_search_iff (tuning : OtaTuning) {events : List Event} {updater : Updater}
    (ran : run (step tuning) {} events = some updater) (direct : Bool) (now : UInt32)
    {answers : Answers} (returned : updater.startReturns answers = true) :
    RunsSearch tuning (updater.beginScanning tuning direct now answers) ↔
      ¬(updater.phase = .scanning ∧ updater.surveyOnly = true) := by
  have orderly := orderly_run ran
  constructor
  · rintro runs ⟨scanning, survey⟩
    obtain ⟨still, same⟩ := @beginScanning_survey tuning updater scanning direct now answers
    exact forgets_of_survey still (same.trans survey) runs
  · intro hunting
    by_cases idle : updater.phase = .idle
    · exact runs_of_searches (searches_of_start orderly idle returned tuning direct now).1
    · exact runs_of_searches (Updater.beginScanning_search tuning
        (orderly.searches idle hunting) direct now answers)

/-- A search whose first attempt is served, with the clock running on. -/
def servedEvents : Nat → Event
  | 0 => .scanDone
  | 1 => .tick false 1 twoOfThree
  | 2 => .gotIp 1
  | n + 3 => .tick false (UInt32.ofNat n) twoOfThree

def servedStates : Nat → Updater
  | 0 => Updater.beginScanning {} {} false 0 twoOfThree
  | n + 1 => (step {} (servedStates n) (servedEvents n)).getD (servedStates n)

private theorem servedStates_serving (n : Nat) : (servedStates (n + 4)).phase = .serving ∧
    (servedStates (n + 4)).scanInFlight = false := by
  induction n with
  | zero => decide
  | succ n ih =>
    have stays : servedStates (n + 1 + 4) = servedStates (n + 4) := by
      show ((servedStates (n + 4)).process {} false (UInt32.ofNat (n + 1)) twoOfThree).1 = _
      rw [Updater.process_serving {} ih.1 rfl]
    rw [stays]
    exact ih

/-- There are fair runs. -/
theorem fair_served : ∃ endless : Endless (step {}),
    endless.states 0 = Updater.beginScanning {} {} false 0 twoOfThree ∧
      Fair (twoOfThree.records.contains ·) endless := by
  refine ⟨⟨servedStates, servedEvents, fun n => ?_⟩, rfl, fun n => ?_, fun n => ?_, ?_, ?_, ?_⟩
  · match n with
    | 0 | 1 | 2 => rfl
    | n + 3 => rfl
  · match n with
    | 0 | 2 => trivial
    | 1 => rfl
    | n + 3 => rfl
  · match n with
    | 0 | 2 => trivial
    | 1 => exact fun ssid => rfl
    | n + 3 => exact fun ssid => rfl
  · intro deadline n
    refine ⟨deadline.toNat + 2 ^ 32 * n + 3, by omega, ?_⟩
    have now : UInt32.ofNat (deadline.toNat + 2 ^ 32 * n) = deadline := by
      apply UInt32.toNat_inj.mp
      rw [UInt32.toNat_ofNat', Nat.add_mul_mod_self_left]
      exact Nat.mod_eq_of_lt deadline.toNat_lt
    show due (UInt32.ofNat (deadline.toNat + 2 ^ 32 * n)) deadline = true
    rw [now, due, UInt32.sub_self]
    rfl
  · rintro n ⟨inFlight, unflagged⟩
    match n with
    | 0 => exact ⟨0, Nat.le_refl 0, rfl⟩
    | 1 => exact absurd unflagged (by decide)
    | 2 | 3 => exact absurd inFlight (by decide)
    | n + 4 => exact absurd ((servedStates_serving n).2.symm.trans inFlight) Bool.false_ne_true
  · intro often
    obtain ⟨m, later, asks⟩ := often 4
    obtain ⟨n, rfl⟩ := Nat.exists_eq_add_of_le' later
    have scanning := (servedStates_serving n).1.symm.trans asks.place.1
    contradiction

/-- A start from idle. -/
theorem start_runs_search_idle :
    RunsSearch {} (Updater.beginScanning {} {} false 0 twoOfThree) :=
  (@start_runs_search_iff {} [] {} rfl false 0 twoOfThree rfl).mpr (by simp)

/-- A start in the middle of a survey. -/
theorem start_is_forgotten : ¬ ∀ (tuning : OtaTuning) (events : List Event) (updater : Updater),
    run (step tuning) {} events = some updater →
      ∀ (direct : Bool) (now : UInt32) (answers : Answers),
        updater.startReturns answers = true →
        RunsSearch tuning (updater.beginScanning tuning direct now answers) := by
  intro always
  have ran : run (step {}) {} [.survey 0 twoOfThree] = some _ := rfl
  exact forgets_of_survey rfl rfl (always {} _ _ ran false 0 twoOfThree rfl)

end BallyOS.Ota
