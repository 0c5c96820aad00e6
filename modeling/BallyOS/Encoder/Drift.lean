import BallyOS.Encoder.Counter

/-! The differences that the filter takes do not drift. What a reading saw of an
interrupt or of a clearing under way, and be it half a word, the next reading
takes back. -/
namespace BallyOS.Encoder
open Library

/-- The interrupt comes before the unit can reach another limit, and an encoder is cleared
while none waits and before the wheel has turned as far. -/
def Allowed (system : System) : Event → Prop
  | .turn _ => (system.unit.waiting ≠ none → system.unit.waits + 1 < 32767) ∧
      (system.clearing ≠ .idle → system.unit.raw.natAbs + 1 < 32767)
  | .clearUnit => system.unit.waiting = none
  | _ => True

instance (system : System) : ∀ event, Decidable (Allowed system event)
  | .turn _ => inferInstanceAs (Decidable (_ ∧ _))
  | .clearUnit => inferInstanceAs (Decidable (_ = _))
  | .interrupt | .loadRaw | .loadWord _ | .getCountDiff | .storeZero _ | .pausePCNT
  | .resumePCNT => isTrue trivial

/-- The counter, the unit and what waits between them are the way the wheel was turned. -/
structure Tracks (system : System) : Prop where
  fits : system.unit.Fits unit_config
  counted : system.clearing = .idle →
    system.counter.value = Int64.ofInt (system.way - system.unit.held)
  cleared : system.clearing ≠ .idle → system.unit.waiting = none ∧ system.unit.raw = system.way
  stored : ∀ high, system.clearing = .stored high → system.counter.stored high = system.counter
  told : system.diffs.sum = system.last_counter

private theorem tracks_init (position : Int) : Tracks (.init position) where
  fits := Narrow.fits_zero unit_config
  counted _ := (value_of 0).trans (by simp [System.init, Narrow.held, Narrow.zero])
  cleared busy := absurd rfl busy
  stored := nofun
  told := rfl

private theorem turnedTo_eq (position : Int) (forward : Bool) :
    turnedTo position forward = position + if forward then 1 else -1 := by
  cases forward <;> rfl

private theorem tracks_turn {system : System} (tracks : Tracks system)
    (allowed : Allowed system (.turn forward)) : Tracks (system.turn forward) := by
  by_cases running : system.running = true
  · rw [turn_way system forward running]
    have single : (if forward then (1 : Int) else -1).natAbs = 1 := by cases forward <;> rfl
    have held := Narrow.held_count tracks.fits single fun waiting =>
      ⟨by have := allowed.1 waiting; simp only [unit_config]; omega,
        by have := allowed.1 waiting; simp only [unit_config]; omega⟩
    refine ⟨Narrow.fits_count tracks.fits single, fun idle => ?_, fun busy => ?_, tracks.stored,
      tracks.told⟩
    · have way := tracks.counted idle
      dsimp only
      rw [way, held, turnedTo_eq, add_sub_add_right_eq_sub]
    · obtain ⟨free, same⟩ := tracks.cleared busy
      have near := allowed.2 busy
      have notHigh : system.unit.raw + (if forward then 1 else -1) ≠ unit_config.high := by
        simp only [unit_config]
        split <;> omega
      have notLow : system.unit.raw + (if forward then 1 else -1) ≠ unit_config.low := by
        simp only [unit_config]
        split <;> omega
      refine ⟨(Narrow.waiting_of_apart notHigh notLow).trans free, ?_⟩
      dsimp only
      rw [Narrow.count, if_neg notHigh, if_neg notLow, turnedTo_eq, same]
  · have same : system.turn forward = { system with
        position := turnedTo system.position forward } := by simp [System.turn, running]
    rw [same]
    exact { tracks with }

private theorem overflow_value {counter : Words} {watch_val : Int}
    (limit : watch_val = unit_config.high ∨ watch_val = unit_config.low) :
    (overflow counter watch_val).value = counter.value + Int64.ofInt watch_val := by
  rcases limit with rfl | rfl
  · exact value_of _
  · exact value_of _

private theorem tracks_interrupt {system : System} (tracks : Tracks system)
    (due : system.unit.waiting = some watch_val) :
    Tracks { system with
      unit := system.unit.carried, counter := overflow system.counter watch_val } := by
  have idle : system.clearing = .idle := by
    by_contra busy
    rw [(tracks.cleared busy).1] at due
    cases due
  refine ⟨Narrow.fits_carried tracks.fits, fun _ => ?_, fun busy => absurd idle busy, ?_,
    tracks.told⟩
  · dsimp only
    rw [overflow_value (tracks.fits.limit watch_val due), tracks.counted idle, ← Int64.ofInt_add]
    congr 1
    simp only [Narrow.held, Narrow.carried, due, Option.getD_none, Option.getD_some]
    omega
  · intro high stored
    rw [idle] at stored
    cases stored

private theorem stored_stored (words : Words) (high : Bool) :
    (words.stored high).stored high = words.stored high := by
  cases high <;> rfl

private theorem stored_both (words : Words) {high other : Bool} (apart : other ≠ high)
    (half : words.stored other = words) : words.stored high = .of 0 := by
  rw [← half]
  cases high <;> cases other <;> first | rfl | exact absurd rfl apart

private theorem tracks_storeZero {system : System} (tracks : Tracks system)
    (stepped : step system (.storeZero high) = some next) : Tracks next := by
  simp only [step] at stepped
  split at stepped
  · cases stepped
  · rename_i busy
    cases stepped
    obtain ⟨free, same⟩ := tracks.cleared (by rw [busy]; nofun)
    exact ⟨tracks.fits, nofun, fun _ => ⟨free, same⟩,
      fun other stored => by cases stored; exact stored_stored _ high, tracks.told⟩
  · rename_i earlier busy
    split at stepped
    · cases stepped
    · rename_i apart
      cases stepped
      obtain ⟨free, same⟩ := tracks.cleared (by rw [busy]; nofun)
      refine ⟨tracks.fits, fun _ => ?_, fun still => absurd rfl still, nofun, tracks.told⟩
      dsimp only
      rw [stored_both _ apart (tracks.stored earlier busy), value_of, Narrow.held, free, same]
      simp

/-- A step of the wheel, the interrupt, the reader or the one that clears keeps the account. -/
theorem tracks_step {system : System} (tracks : Tracks system) (allowed : Allowed system event)
    (stepped : step system event = some next) : Tracks next := by
  cases event with
  | turn forward =>
    cases stepped
    exact tracks_turn tracks allowed
  | interrupt =>
    simp only [step, Option.map_eq_some_iff] at stepped
    obtain ⟨watch_val, due, rfl⟩ := stepped
    exact tracks_interrupt tracks due
  | loadRaw =>
    cases stepped
    exact { tracks with }
  | loadWord high =>
    cases stepped
    exact { tracks with }
  | getCountDiff =>
    simp only [step] at stepped
    split at stepped
    · cases stepped
      refine ⟨tracks.fits, tracks.counted, tracks.cleared, tracks.stored, ?_⟩
      dsimp only
      rw [List.sum_cons, tracks.told, Int64.sub_add_cancel]
    · cases stepped
  | clearUnit =>
    simp only [step] at stepped
    split at stepped
    · cases stepped
      have fits := tracks.fits
      refine ⟨⟨unit_config.low_neg, unit_config.high_pos, fun _ => by simp, fits.limit⟩, nofun,
        fun _ => ⟨allowed, rfl⟩, nofun, tracks.told⟩
    · cases stepped
  | storeZero high => exact tracks_storeZero tracks stepped
  | pausePCNT =>
    cases stepped
    exact { tracks with }
  | resumePCNT =>
    cases stepped
    exact { tracks with }

/-! ### A reading -/

/-- What happens to the encoder while it is read, if neither the interrupt nor one that clears
it comes between. -/
def Event.undisturbed : Event → Bool
  | .turn _ | .loadRaw | .loadWord _ | .pausePCNT | .resumePCNT => true
  | .interrupt | .getCountDiff | .clearUnit | .storeZero _ => false

/-- What a reading has loaded since it began is the counter's, and was the unit's. -/
structure Loading (start : System) (middle : List Event) (system : System) : Prop where
  counter : system.counter = start.counter
  idle : system.clearing = start.clearing
  free : system.unit.waiting = none → start.unit.waiting = none
  low : ∀ word, system.loads.low = some word → start.loads.low = some word ∨
    word = start.counter.low
  high : ∀ word, system.loads.high = some word → start.loads.high = some word ∨
    word = start.counter.high
  raw : ∀ raw, system.loads.raw = some raw → start.loads.raw = some raw ∨
    ∃ early late moment, middle = early ++ late ∧ run step start early = some moment ∧
      moment.unit.raw = raw

private theorem waiting_turn {system : System} (free : (system.turn forward).unit.waiting = none) :
    system.unit.waiting = none := by
  by_contra waiting
  refine absurd free ?_
  unfold System.turn
  split
  · exact Narrow.waiting_count waiting
  · exact waiting

private theorem turn_same (system : System) (forward : Bool) :
    (system.turn forward).counter = system.counter ∧
      (system.turn forward).clearing = system.clearing ∧
        (system.turn forward).loads = system.loads := by
  unfold System.turn
  split <;> exact ⟨rfl, rfl, rfl⟩

private theorem loading_step {start next : System} (undisturbed : event.undisturbed = true)
    (stepped : step start event = some next) : Loading start [event] next := by
  have nothing {raw : Int} (same : start.unit.raw = raw) : ∃ early late moment,
      [event] = early ++ late ∧ run step start early = some moment ∧ moment.unit.raw = raw :=
    ⟨[], [event], start, rfl, rfl, same⟩
  cases event with
  | turn forward =>
    cases stepped
    obtain ⟨counter, clearing, loads⟩ := turn_same start forward
    exact ⟨counter, clearing, waiting_turn, fun _ => loads ▸ .inl, fun _ => loads ▸ .inl,
      fun _ => loads ▸ .inl⟩
  | loadRaw =>
    cases stepped
    exact ⟨rfl, rfl, id, fun _ => .inl, fun _ => .inl,
      fun _ loaded => .inr (nothing (Option.some.inj loaded))⟩
  | loadWord high =>
    cases stepped
    cases high with
    | true =>
      exact ⟨rfl, rfl, id, fun _ => .inl, fun _ loaded => .inr (Option.some.inj loaded).symm,
        fun _ => .inl⟩
    | false =>
      exact ⟨rfl, rfl, id, fun _ loaded => .inr (Option.some.inj loaded).symm, fun _ => .inl,
        fun _ => .inl⟩
  | pausePCNT | resumePCNT =>
    cases stepped
    exact ⟨rfl, rfl, id, fun _ => .inl, fun _ => .inl, fun _ => .inl⟩
  | interrupt | getCountDiff | clearUnit | storeZero high => cases undisturbed

private theorem loading_run {start finish : System}
    (undisturbed : ∀ event ∈ middle, event.undisturbed = true)
    (ran : run step start middle = some finish) : Loading start middle finish := by
  induction middle generalizing start with
  | nil =>
    cases ran
    exact ⟨rfl, rfl, id, fun _ => .inl, fun _ => .inl, fun _ => .inl⟩
  | cons event rest ih =>
    obtain ⟨next, stepped, after⟩ := run_cons.mp ran
    have one := loading_step (undisturbed event List.mem_cons_self) stepped
    have later := ih (fun other member => undisturbed other (List.mem_cons_of_mem _ member)) after
    refine ⟨later.counter.trans one.counter, later.idle.trans one.idle, one.free ∘ later.free,
      fun word loaded => ?_, fun word loaded => ?_, fun raw loaded => ?_⟩
    · obtain earlier | same := later.low word loaded
      · exact one.low word earlier
      · exact .inr (by rw [same, one.counter])
    · obtain earlier | same := later.high word loaded
      · exact one.high word earlier
      · exact .inr (by rw [same, one.counter])
    · obtain earlier | ⟨early, late, moment, split, reached, same⟩ := later.raw raw loaded
      · refine (one.raw raw earlier).imp id ?_
        rintro ⟨early, late, moment, split, reached, same⟩
        exact ⟨early, late ++ rest, moment, by rw [← List.append_assoc, ← split]; rfl,
          reached, same⟩
      · exact .inr ⟨event :: early, late, moment, by rw [split]; rfl,
          run_cons.mpr ⟨next, stepped, reached⟩, same⟩

/-- Whatever the encoder's interrupt and those who clear, pause and read it did to each other
before: after a reading that none of them disturbs, all the differences taken so far add up to
the way the wheel was turned since it was cleared, at a moment of that reading. -/
theorem diffs_add_up_to_the_way {position : Int} {before middle : List Event}
    {start finish after : System}
    (allowed : Along step Allowed (.init position) (before ++ middle))
    (reached : run step (.init position) before = some start) (fresh : start.loads = {})
    (idle : start.clearing = .idle) (undisturbed : ∀ event ∈ middle, event.undisturbed = true)
    (ran : run step start middle = some finish) (free : finish.unit.waiting = none)
    (taken : step finish .getCountDiff = some after) :
    ∃ early late moment, middle = early ++ late ∧ run step start early = some moment ∧
      after.diffs.sum = Int64.ofInt moment.way := by
  have loading := loading_run undisturbed ran
  have tracks : Tracks finish := run_invariant_along tracks_step (tracks_init position) allowed
    (run_append.mpr ⟨start, reached, ran⟩)
  have tracksAfter : Tracks after :=
    tracks_step tracks (show Allowed finish .getCountDiff from trivial) taken
  simp only [step] at taken
  split at taken
  · rename_i raw low high loads
    cases taken
    have lowIs : low = start.counter.low := (loading.low low (by rw [loads])).resolve_left
      (by rw [fresh]; nofun)
    have highIs : high = start.counter.high := (loading.high high (by rw [loads])).resolve_left
      (by rw [fresh]; nofun)
    obtain ⟨early, late, moment, split, came, rawIs⟩ :=
      (loading.raw raw (by rw [loads])).resolve_left
      (by rw [fresh]; nofun)
    subst split
    have allowedThen : Along step Allowed (.init position) (before ++ early) :=
      along_front (by rw [List.append_assoc]; exact allowed)
    have then_ : Tracks moment := run_invariant_along tracks_step (tracks_init position) allowedThen
      (run_append.mpr ⟨start, reached, came⟩)
    have front :=
      loading_run (fun event member => undisturbed event (List.mem_append_left _ member)) came
    obtain ⟨_, sameMoment, rest⟩ := run_append.mp ran
    cases came.symm.trans sameMoment
    have back :=
      loading_run (fun event member => undisturbed event (List.mem_append_right _ member)) rest
    have held : moment.unit.held = raw := by rw [Narrow.held, back.free free, rawIs]; simp
    refine ⟨early, late, moment, rfl, came, ?_⟩
    calc ((getCount raw low high - finish.last_counter) :: finish.diffs).sum
        = getCount raw low high := tracksAfter.told
      _ = moment.counter.value + Int64.ofInt raw := by rw [front.counter, lowIs, highIs]; rfl
      _ = Int64.ofInt moment.way := by
        rw [then_.counted (front.idle.trans idle), held, ← Int64.ofInt_add, Int.sub_add_cancel]
  · cases taken

/-- The encoder is cleared while it is read. -/
private def clearedReading : List Event :=
  [.turn false, .turn false, .turn false, .loadRaw, .clearUnit, .loadWord true, .storeZero true,
    .loadWord false, .getCountDiff, .storeZero false]

private def readTurning : List Event :=
  [.turn true, .loadWord true, .loadRaw, .turn true, .loadWord false]

theorem diffs_add_up_after_a_cleared_reading : ∃ start finish after,
    run step (.init 6) clearedReading = some start ∧ start.diffs = [-3] ∧
      run step start readTurning = some finish ∧ step finish .getCountDiff = some after ∧
      after.diffs = [4, -3] ∧ ∃ early late moment, readTurning = early ++ late ∧
        run step start early = some moment ∧ after.diffs.sum = Int64.ofInt moment.way := by
  have sum :=
    @diffs_add_up_to_the_way 6 clearedReading readTurning _ _ _ (by decide +kernel) rfl rfl
    rfl (by decide) rfl rfl rfl
  exact ⟨_, _, _, rfl, by decide +kernel, rfl, rfl, by decide +kernel, sum⟩

end BallyOS.Encoder
