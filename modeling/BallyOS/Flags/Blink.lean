import BallyOS.Flags.Flags

/-! The blink of the error state. The LEDs are set on every pass of an on half period, each
time to last a whole half period more, so they are still up through the off half that follows. -/
namespace BallyOS.Flags
namespace Blink

/-- The LEDs that blink are the first four flags. -/
def LEDS : Nat := 4

/-- Whether the clock is in an on half period. -/
def isOn (halfPeriodMs : UInt32) (nowMs : Nat) : Bool := (millis nowMs / halfPeriodMs) % 2 = 0

def blinkErrorLeds (halfPeriodMs : UInt32) (leds : FlagsBase) (nowMs : Nat) : FlagsBase :=
  if (millis nowMs / halfPeriodMs) % 2 ≠ 0 then leds
  else (List.range LEDS).foldl (fun leds index => leds.setFlag nowMs index halfPeriodMs) leds

/-- One pass; the two tasks that share it come in either order. -/
structure Pass where
  nowMs : Nat
  blinksFirst : Bool
deriving Repr, DecidableEq

/-- The flags as the pass's check leaves them. -/
def checked (halfPeriodMs : UInt32) (leds : FlagsBase) (pass : Pass) : FlagsBase :=
  if pass.blinksFirst then
    (blinkErrorLeds halfPeriodMs leds pass.nowMs).checkFlagsDuration pass.nowMs
  else leds.checkFlagsDuration pass.nowMs

def passed (halfPeriodMs : UInt32) (leds : FlagsBase) (pass : Pass) : FlagsBase :=
  if pass.blinksFirst then checked halfPeriodMs leds pass
  else blinkErrorLeds halfPeriodMs (checked halfPeriodMs leds pass) pass.nowMs

/-- The half period of a time, by the wraps of the clock and the half periods since. -/
def half (halfPeriodMs : UInt32) (nowMs : Nat) : Nat × Nat :=
  (nowMs / 2 ^ 32, nowMs % 2 ^ 32 / halfPeriodMs.toNat)

/-- The pass is not the first of its half period. -/
def Settled (halfPeriodMs : UInt32) (previous : Option Pass) (pass : Pass) : Prop :=
  ∃ before, previous = some before ∧ half halfPeriodMs before.nowMs = half halfPeriodMs pass.nowMs

/-- Past the first pass of each half period the LEDs are all up in an on half and all down in
an off half. -/
def Blinks (halfPeriodMs : UInt32) : FlagsBase → Option Pass → List Pass → Prop
  | _, _, [] => True
  | leds, previous, pass :: rest =>
    (Settled halfPeriodMs previous pass → ∀ index < LEDS,
      (checked halfPeriodMs leds pass).isActive index = isOn halfPeriodMs pass.nowMs) ∧
    Blinks halfPeriodMs (passed halfPeriodMs leds pass) (some pass) rest

/-- The passes never come to a second one in an off half period once there was one in an on
half period. -/
def LeavesDark (halfPeriodMs : UInt32) : Bool → Option Pass → List Pass → Prop
  | _, _, [] => True
  | lit, previous, pass :: rest =>
    ¬ (lit = true ∧ Settled halfPeriodMs previous pass ∧ isOn halfPeriodMs pass.nowMs = false) ∧
    LeavesDark halfPeriodMs (lit || isOn halfPeriodMs pass.nowMs) (some pass) rest

/-- Each pass comes at most so long after the one before. -/
def Spaced (gap : Nat) : Option Pass → List Pass → Prop
  | _, [] => True
  | previous, pass :: rest =>
    (∀ before, previous = some before →
      before.nowMs ≤ pass.nowMs ∧ pass.nowMs ≤ before.nowMs + gap) ∧
    Spaced gap (some pass) rest

/-! ### Half periods -/

private theorem isOn_iff (halfPeriodMs : UInt32) (nowMs : Nat) :
    isOn halfPeriodMs nowMs = true ↔ (half halfPeriodMs nowMs).2 % 2 = 0 := by
  rw [isOn, decide_eq_true_iff, ← UInt32.toNat_inj, UInt32.toNat_mod, UInt32.toNat_div]
  simp [millis, half]

private theorem isOn_of_half {halfPeriodMs : UInt32} {first second : Nat}
    (same : half halfPeriodMs first = half halfPeriodMs second) :
    isOn halfPeriodMs first = isOn halfPeriodMs second := by
  rw [Bool.eq_iff_iff, isOn_iff, isOn_iff, same]

/-- No gap of the passes steps over an on half period. -/
theorem same_half {halfPeriodMs : UInt32} {gap first second : Nat}
    (short : 2 * gap < halfPeriodMs.toNat) (onward : first ≤ second)
    (near : second ≤ first + gap) (firstOff : isOn halfPeriodMs first = false)
    (secondOff : isOn halfPeriodMs second = false) :
    half halfPeriodMs first = half halfPeriodMs second := by
  rw [Bool.eq_false_iff, ne_eq, isOn_iff] at firstOff secondOff
  simp only [half, Prod.mk.injEq] at firstOff secondOff ⊢
  generalize halfPeriodMs.toNat = period at *
  have period_pos : 0 < period := by omega
  by_cases epoch : first / 2 ^ 32 = second / 2 ^ 32
  · refine ⟨epoch, ?_⟩
    have later : first % 2 ^ 32 / period ≤ second % 2 ^ 32 / period :=
      Nat.div_le_div_right (by omega)
    have next : second % 2 ^ 32 / period ≤ (first % 2 ^ 32 + period) / period :=
      Nat.div_le_div_right (by omega)
    rw [Nat.add_div_right _ period_pos] at next
    omega
  · -- the clock wrapped in between, so the second pass is in the first, on half period
    have start : second % 2 ^ 32 < period := by omega
    rw [Nat.div_eq_of_lt start] at secondOff
    exact absurd rfl secondOff

/-! ### One pass -/

/-- The LEDs were last set so long ago and have not gone down. -/
def LitAt (halfPeriodMs : UInt32) (leds : FlagsBase) (nowMs : Nat) : Prop :=
  ∀ index < LEDS, leds.isActive index = true ∧ leds.time index = millis nowMs ∧
    leds.timeLimit index = halfPeriodMs

def Dark (leds : FlagsBase) : Prop := ∀ index < LEDS, leds.isActive index = false

private theorem blinkErrorLeds_off {halfPeriodMs : UInt32} {nowMs : Nat}
    (off : isOn halfPeriodMs nowMs = false) (leds : FlagsBase) :
    blinkErrorLeds halfPeriodMs leds nowMs = leds := by
  have odd := of_decide_eq_false off
  rw [blinkErrorLeds, if_pos odd]

private theorem blinkErrorLeds_on {halfPeriodMs : UInt32} {nowMs : Nat}
    (on : isOn halfPeriodMs nowMs = true) (leds : FlagsBase) :
    LitAt halfPeriodMs (blinkErrorLeds halfPeriodMs leds nowMs) nowMs := by
  have even := of_decide_eq_true on
  rw [blinkErrorLeds, if_neg (not_not_intro even)]
  have within {index : Nat} (led : index < LEDS) : index < kMaxFlags :=
    Nat.lt_trans led (by decide)
  have sets (indices : List Nat) (leds : FlagsBase) (legal : ∀ index ∈ indices, index < LEDS) :
      ∀ index, index ∈ indices ∨ (leds.isActive index = true ∧
        leds.time index = millis nowMs ∧ leds.timeLimit index = halfPeriodMs) →
      let after := indices.foldl (fun leds index => leds.setFlag nowMs index halfPeriodMs) leds
      after.isActive index = true ∧ after.time index = millis nowMs ∧
        after.timeLimit index = halfPeriodMs := by
    induction indices generalizing leds with
    | nil => exact fun index set => set.resolve_left List.not_mem_nil
    | cons first rest ih =>
      intro index set
      refine ih _ (fun later member => legal later (List.mem_cons_of_mem _ member)) index ?_
      have active := FlagsBase.isActive_setFlag leds nowMs
        (within (legal first List.mem_cons_self)) halfPeriodMs index
      by_cases same : index = first
      · subst same
        refine .inr ⟨by rw [active]; simp, Function.update_self .., Function.update_self ..⟩
      · obtain member | ⟨up, time, limit⟩ := set
        · exact .inl ((List.mem_cons.mp member).resolve_left same)
        · exact .inr ⟨by rw [active, up]; rfl, (Function.update_of_ne same ..).trans time,
            (Function.update_of_ne same ..).trans limit⟩
  exact fun index led => sets (List.range LEDS) leds (fun _ => List.mem_range.mp) index
    (.inl (List.mem_range.mpr led))

private theorem dark_check {leds : FlagsBase} (dark : Dark leds) (nowMs : Nat) :
    Dark (leds.checkFlagsDuration nowMs) := by
  intro index led
  obtain ⟨-, -, active⟩ := leds.checkFlagsDuration_spec nowMs
  exact Bool.eq_false_iff.mpr fun up =>
    absurd ((active index).mp up).1 (Bool.eq_false_iff.mp (dark index led))

/-- Within a half period of their setting the LEDs stay up. -/
theorem litAt_check {halfPeriodMs : UInt32} {leds : FlagsBase} {setMs nowMs : Nat}
    (lit : LitAt halfPeriodMs leds setMs) (onward : setMs ≤ nowMs)
    (near : nowMs - setMs ≤ halfPeriodMs.toNat) :
    LitAt halfPeriodMs (leds.checkFlagsDuration nowMs) setMs := by
  intro index led
  obtain ⟨up, time, limit⟩ := lit index led
  obtain ⟨sameTime, sameLimit, active⟩ := leds.checkFlagsDuration_spec nowMs
  have width := halfPeriodMs.toNat_lt
  refine ⟨(active index).mpr ⟨up, fun late => ?_⟩, (congrFun sameTime _).trans time,
    (congrFun sameLimit _).trans limit⟩
  have overdue := late.2
  rw [FlagsBase.Overdue, time, limit, gt_iff_lt, UInt32.lt_iff_toNat_lt,
    millis_sub onward (by omega)] at overdue
  omega

private theorem pass_on {halfPeriodMs : UInt32} {leds : FlagsBase} {pass : Pass}
    (on : isOn halfPeriodMs pass.nowMs = true) :
    LitAt halfPeriodMs (passed halfPeriodMs leds pass) pass.nowMs := by
  unfold passed checked
  split
  · exact litAt_check (blinkErrorLeds_on on leds) (Nat.le_refl _) (by omega)
  · exact blinkErrorLeds_on on _

private theorem pass_off {halfPeriodMs : UInt32} {leds : FlagsBase} {pass : Pass}
    (off : isOn halfPeriodMs pass.nowMs = false) :
    checked halfPeriodMs leds pass = leds.checkFlagsDuration pass.nowMs ∧
      passed halfPeriodMs leds pass = leds.checkFlagsDuration pass.nowMs := by
  unfold passed checked
  rw [blinkErrorLeds_off off, blinkErrorLeds_off off]
  split
  · exact ⟨rfl, rfl⟩
  · exact ⟨rfl, rfl⟩

private theorem checked_lit {halfPeriodMs : UInt32} {leds : FlagsBase} {pass : Pass} {setMs : Nat}
    (lit : LitAt halfPeriodMs leds setMs) (onward : setMs ≤ pass.nowMs)
    (near : pass.nowMs - setMs ≤ halfPeriodMs.toNat) (index : Nat) (led : index < LEDS) :
    (checked halfPeriodMs leds pass).isActive index = true := by
  unfold checked
  split
  · cases on : isOn halfPeriodMs pass.nowMs with
    | true =>
      exact (litAt_check (blinkErrorLeds_on on leds) (Nat.le_refl _) (by omega) index led).1
    | false =>
      rw [blinkErrorLeds_off on]
      exact (litAt_check lit onward near index led).1
  · exact (litAt_check lit onward near index led).1

/-! ### Runs -/

/-- Where a run of passes stands: nothing was lit yet; or the last pass lit the LEDs; or it is
the first of an off half period after one that did. -/
inductive Stage (halfPeriodMs : UInt32) (gap : Nat) (leds : FlagsBase) :
    Bool → Option Pass → Prop
  | unlit {previous : Option Pass} (dark : Dark leds)
      (off : ∀ before, previous = some before → isOn halfPeriodMs before.nowMs = false) :
      Stage halfPeriodMs gap leds false previous
  | lit {before : Pass} (on : isOn halfPeriodMs before.nowMs = true)
      (up : LitAt halfPeriodMs leds before.nowMs) :
      Stage halfPeriodMs gap leds true (some before)
  | leaving {before : Pass} {setMs : Nat} (off : isOn halfPeriodMs before.nowMs = false)
      (up : LitAt halfPeriodMs leds setMs) (onward : setMs ≤ before.nowMs)
      (near : before.nowMs ≤ setMs + gap) : Stage halfPeriodMs gap leds true (some before)

private theorem blinks_iff_of_stage {halfPeriodMs : UInt32} {gap : Nat}
    (short : 2 * gap < halfPeriodMs.toNat) (passes : List Pass) {leds : FlagsBase} {lit : Bool}
    {previous : Option Pass} (stage : Stage halfPeriodMs gap leds lit previous)
    (spaced : Spaced gap previous passes) :
    Blinks halfPeriodMs leds previous passes ↔ LeavesDark halfPeriodMs lit previous passes := by
  induction passes generalizing leds lit previous with
  | nil => exact Iff.rfl
  | cons pass rest ih =>
    obtain ⟨near, spaced⟩ := spaced
    rw [Blinks, LeavesDark]
    cases on : isOn halfPeriodMs pass.nowMs with
    | true =>
      rw [Bool.or_true, ih (.lit on (pass_on on)) spaced]
      refine and_congr_left fun _ => iff_of_true (fun settled index led => ?_) (by simp)
      obtain ⟨before, rfl, same⟩ := settled
      obtain ⟨onward, soon⟩ := near before rfl
      cases stage with
      | unlit _ off =>
        have dark := (isOn_of_half same).symm.trans (off before rfl)
        exact absurd (on.symm.trans dark) nofun
      | lit _ up => exact checked_lit up onward (by omega) index led
      | leaving off =>
        exact absurd (on.symm.trans ((isOn_of_half same).symm.trans off)) nofun
    | false =>
      obtain ⟨checks, passes⟩ := @pass_off halfPeriodMs leds pass on
      rw [Bool.or_false]
      cases stage with
      | unlit dark off =>
        have still : Dark (passed halfPeriodMs leds pass) := passes ▸ dark_check dark pass.nowMs
        rw [ih (.unlit still fun before same => by cases same; exact on) spaced]
        refine and_congr_left fun _ => iff_of_true (fun _ index led => ?_) (by simp)
        rw [checks]
        exact dark_check dark pass.nowMs index led
      | @lit before lightOn up =>
        obtain ⟨onward, soon⟩ := near before rfl
        have differ : ¬ Settled halfPeriodMs (some before) pass := by
          rintro ⟨other, known, same⟩
          cases known
          exact absurd (lightOn.symm.trans ((isOn_of_half same).trans on)) nofun
        have kept : LitAt halfPeriodMs (passed halfPeriodMs leds pass) before.nowMs :=
          passes ▸ litAt_check up onward (by omega)
        rw [ih (.leaving on kept onward soon) spaced]
        exact and_congr_left fun _ => iff_of_true (fun settled => absurd settled differ)
          fun both => differ both.2.1
      | @leaving before setMs off up past close =>
        -- the second pass of the off half period: the LEDs are still up
        obtain ⟨onward, soon⟩ := near before rfl
        have settled : Settled halfPeriodMs (some before) pass :=
          ⟨before, rfl, same_half short onward soon off on⟩
        have lit := checked_lit up (Nat.le_trans past onward) (by omega) 0 (by decide)
        refine iff_of_false (fun blinks => ?_) fun leaves => leaves.1 ⟨rfl, settled, rfl⟩
        exact absurd (lit.symm.trans (blinks.1 settled 0 (by decide))) nofun

/-- The blink is seen exactly in the runs that never stay in an off half period: wherever a
second pass of one comes after an on half period, the LEDs are still up. -/
theorem error_blink_iff {halfPeriodMs : UInt32} {gap : Nat}
    (short : 2 * gap < halfPeriodMs.toNat) (passes : List Pass) (spaced : Spaced gap none passes) :
    Blinks halfPeriodMs {} none passes ↔ LeavesDark halfPeriodMs false none passes := by
  refine blinks_iff_of_stage short passes (.unlit ?_ nofun) spaced
  exact fun index _ => by simp [FlagsBase.isActive_eq]

private def everyTenth (firstMs count : Nat) : List Pass :=
  (List.range count).map fun index => ⟨firstMs + 100 * index, false⟩

/-- From the middle of an off half period, through an on half, into the next off half. -/
theorem error_blink_from_an_off_half :
    Blinks 250 {} none (everyTenth 300 6) :=
  (@error_blink_iff 250 100 (by decide) (everyTenth 300 6) (by simp [everyTenth, Spaced,
    List.range_succ])).mpr (by simp [everyTenth, LeavesDark, Settled, half, List.range_succ, isOn,
      millis])

/-- A quarter of a second on, and 150 ms into the quarter that is to be off all is still on. -/
theorem leds_up_in_off_half :
    Spaced 100 none (everyTenth 0 5) ∧ 2 * 100 < (250 : UInt32).toNat ∧
      ¬ Blinks 250 {} none (everyTenth 0 5) := by
  refine ⟨by simp [everyTenth, Spaced, List.range_succ], by decide, fun blinks => ?_⟩
  have dark := blinks.2.2.2.2.1 ⟨⟨300, false⟩, rfl, by decide⟩ 0 (by decide)
  exact absurd dark (by decide +kernel)

end Blink
end BallyOS.Flags
