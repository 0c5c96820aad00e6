import Mathlib.Algebra.Group.Nat.Defs
import BallyOS.DebugTests.Scheduled

/-! What a debug test promises: a cancel is final, and a schedule call is worth its samples and
no more, an interval apart. It keeps that as long as no call falls into a poll that samples. -/
namespace BallyOS.DebugTests
open Library
open Flags (millis)

/-- An epoch's samples, the latest first. -/
def World.samplesOf (world : World) (epoch : Nat) : List Sample :=
  world.samples.filter (·.epoch = epoch)

/-- After a cancel with no schedule call behind it there is one sample at most, and with the poll
that was under way at an end the test is not active; and each schedule call makes as many samples
as it was for at most, returned an interval apart. -/
structure Promises (world : World) : Prop where
  final : world.cancelled = true →
    world.sampledSince ≤ 1 ∧ (world.pending = false → world.active = false)
  bounded : ∀ index samples intervalMs, world.schedules[index]? = some (samples, intervalMs) →
    (world.samplesOf (index + 1)).length ≤ samples.toNat ∧
      (world.samplesOf (index + 1)).Pairwise fun later earlier =>
        earlier.returnMs + intervalMs.toNat ≤ later.returnMs

/-- The test as it is built. -/
def World.start (nowMs : Nat) : World := { nowMs }

/-- A poll finds a sample due only between schedule calls and on what it loaded, or on the last
sample; none of the calls then comes before it has stored what is left, but a cancel of the last
sample; an interval is one that the comparison can tell, if there is more than one sample; and a
poll that samples returns as long after it read the clock as those before it, or longer. -/
def Undisturbed (world : World) : Event → Prop
  | .schedule samples intervalMs => 1 < samples → intervalMs.toNat ≤ 2 ^ 31
  | .storeRemaining => ∀ remaining nowMs epoch, world.poll ≠ .due remaining nowMs epoch
  | .cancel => ∀ remaining nowMs epoch, world.poll = .due remaining nowMs epoch → remaining = 1
  | .pollNext => ∀ remaining nowMs epoch, world.poll = .timed remaining nowMs epoch →
      isEarly (millis nowMs) world.nextMs = false →
        world.shell = .idle ∧ epoch = world.schedules.length ∧
          (world.remaining = remaining ∨ remaining = 1)
  | .pollReturn => ∀ nowMs epoch, world.poll = .returning nowMs epoch →
      ∀ earlier ∈ world.samplesOf epoch,
        earlier.returnMs + nowMs ≤ world.nowMs + earlier.nowMs
  | _ => True

/-! ### What a poll has in hand -/

def Poll.epoch : Poll → Option Nat
  | .idle => none
  | .loaded _ epoch => some epoch
  | .timed _ _ epoch => some epoch
  | .due _ _ epoch => some epoch
  | .stored _ epoch => some epoch
  | .advancing _ _ epoch => some epoch
  | .returning _ epoch => some epoch

/-- What it loaded, until that is stored less one. -/
def Poll.holds : Poll → Option (UInt32 × Nat)
  | .loaded remaining epoch => some (remaining, epoch)
  | .timed remaining _ epoch => some (remaining, epoch)
  | .due remaining _ epoch => some (remaining, epoch)
  | _ => none

/-- The time it read. -/
def Poll.time : Poll → Option Nat
  | .timed _ nowMs _ => some nowMs
  | .due _ nowMs _ => some nowMs
  | .stored nowMs _ => some nowMs
  | .advancing nowMs _ _ => some nowMs
  | .returning nowMs _ => some nowMs
  | _ => none

/-- The epoch and the time of the sample that it is about to make, from when that is due. -/
def Poll.sample : Poll → Option (Nat × Nat)
  | .due _ nowMs epoch => some (epoch, nowMs)
  | .stored nowMs epoch => some (epoch, nowMs)
  | .advancing nowMs _ epoch => some (epoch, nowMs)
  | .returning nowMs epoch => some (epoch, nowMs)
  | _ => none

/-- The epoch of the sample it has counted and not yet made. -/
def Poll.counted : Poll → Option Nat
  | .stored _ epoch => some epoch
  | .advancing _ _ epoch => some epoch
  | .returning _ epoch => some epoch
  | _ => none

/-- How many samples of an epoch it has counted and not yet made. -/
def Poll.counts (poll : Poll) (epoch : Nat) : Nat :=
  if poll.counted = some epoch then 1 else 0

/-- What the shell is about to schedule. -/
def Shell.given : Shell → Option (UInt32 × UInt32)
  | .idle => none
  | .intervalStored samples intervalMs => some (samples, intervalMs)
  | .clockRead samples intervalMs _ => some (samples, intervalMs)
  | .nextStored samples intervalMs => some (samples, intervalMs)

private theorem counts_of_ne {poll : Poll} {epoch : Nat} (other : poll.epoch ≠ some epoch) :
    poll.counts epoch = 0 := by
  cases poll with
  | stored => simpa [Poll.counts, Poll.counted, Poll.epoch] using other
  | advancing => simpa [Poll.counts, Poll.counted, Poll.epoch] using other
  | returning => simpa [Poll.counts, Poll.counted, Poll.epoch] using other
  | _ => rfl

private theorem epoch_of_holds {poll : Poll} {remaining : UInt32} {epoch : Nat}
    (holds : poll.holds = some (remaining, epoch)) : poll.epoch = some epoch := by
  cases poll with
  | loaded => simpa [Poll.epoch] using (Prod.mk.inj (Option.some.inj holds)).2
  | timed => simpa [Poll.epoch] using (Prod.mk.inj (Option.some.inj holds)).2
  | due => simpa [Poll.epoch] using (Prod.mk.inj (Option.some.inj holds)).2
  | _ => cases holds

/-! ### Whose the samples are -/

/-- A poll and its samples belong to schedule calls that were made, and to times that have
been. -/
structure Known (world : World) : Prop where
  epoch : ∀ epoch, world.poll.epoch = some epoch → epoch ≤ world.schedules.length
  samples : ∀ sample ∈ world.samples, sample.epoch ≤ world.schedules.length ∧
    sample.nowMs ≤ world.nowMs
  time : ∀ nowMs, world.poll.time = some nowMs → nowMs ≤ world.nowMs ∧
    ∀ sample ∈ world.samples, sample.nowMs ≤ nowMs
  held : ∀ remaining epoch, world.poll.holds = some (remaining, epoch) → remaining ≠ 0
  due : ∀ remaining nowMs epoch, world.poll = .due remaining nowMs epoch →
    epoch = world.schedules.length
  young : ∀ epoch, world.poll.epoch = some epoch → epoch < world.schedules.length →
    world.samplesOf world.schedules.length = []

/-- A sample is the latest of its epoch. -/
theorem samplesOf_cons {world next : World} {sample : Sample}
    (grown : next.samples = sample :: world.samples) (epoch : Nat) :
    next.samplesOf epoch =
      if sample.epoch = epoch then sample :: world.samplesOf epoch
      else world.samplesOf epoch := by
  rw [World.samplesOf, grown, List.filter_cons]
  by_cases same : sample.epoch = epoch
  · simp [same, World.samplesOf]
  · simp [same, World.samplesOf]

/-- The schedule calls after one more. -/
theorem schedules_append {world : World} {index : Nat} {entry new : UInt32 × UInt32}
    (at_index : (world.schedules ++ [new])[index]? = some entry) :
    world.schedules[index]? = some entry ∧ index + 1 ≤ world.schedules.length ∨
      index = world.schedules.length ∧ entry = new := by
  rcases Nat.lt_or_ge index world.schedules.length with older | newer
  · rw [List.getElem?_append_left older] at at_index
    exact .inl ⟨at_index, older⟩
  · have below := (List.getElem?_eq_some_iff.mp at_index).1
    rw [List.length_append, List.length_singleton] at below
    have same : index = world.schedules.length := by omega
    rw [same, List.getElem?_append_right (Nat.le_refl _)] at at_index
    exact .inr ⟨same, by simpa using at_index.symm⟩

private theorem samplesOf_new {world : World} (known : Known world) :
    world.samplesOf (world.schedules.length + 1) = [] := by
  rw [World.samplesOf, List.filter_eq_nil_iff]
  intro sample member
  have := (known.samples sample member).1
  simp only [decide_eq_true_eq]
  omega

private theorem known_step {world next : World} {event : Event} (known : Known world)
    (undisturbed : Undisturbed world event) (stepped : step world event = some next) :
    Known next := by
  obtain ⟨epoch, samples, time, held, due, young⟩ := known
  cases moved_of_step stepped with
  | stayed | began | read | placed | cancelled =>
    exact ⟨epoch, samples, time, held, due, young⟩
  | ticked ms =>
    exact ⟨epoch, fun sample member => ⟨(samples sample member).1,
        Nat.le_trans (samples sample member).2 (Nat.le_add_right ..)⟩,
      fun nowMs read => ⟨Nat.le_trans (time nowMs read).1 (Nat.le_add_right ..),
        (time nowMs read).2⟩, held, due, young⟩
  | scheduled count intervalMs here =>
    have new := samplesOf_new ⟨epoch, samples, time, held, due, young⟩
    exact {
      epoch := fun of goes => by
        simpa using Nat.le_succ_of_le (epoch of goes)
      samples := fun sample member => by
        simpa using ⟨Nat.le_succ_of_le (samples sample member).1, (samples sample member).2⟩
      time := time
      held := held
      due := fun remaining nowMs of goes => absurd goes (undisturbed remaining nowMs of)
      young := fun _ _ _ => by
        rw [List.length_append]
        exact new }
  | loaded here some =>
    exact {
      epoch := fun of goes => by
        cases goes
        exact Nat.le_refl _
      samples := samples
      time := by simp [Poll.time]
      held := fun remaining of holds => by
        cases holds
        exact some
      due := by simp
      young := fun of goes older => by
        cases goes
        exact absurd older (Nat.lt_irrefl _) }
  | timed remaining of here =>
    rw [here] at epoch held young
    exact {
      epoch := epoch
      samples := samples
      time := fun nowMs read => by
        cases read
        exact ⟨Nat.le_refl _, fun sample member => (samples sample member).2⟩
      held := held
      due := by simp
      young := young }
  | early remaining nowMs of here =>
    exact ⟨by simp [World.returns, Poll.epoch], samples, by simp [World.returns, Poll.time],
      by simp [World.returns, Poll.holds], by simp [World.returns],
      by simp [World.returns, Poll.epoch]⟩
  | due remaining nowMs of here reached =>
    have current := (undisturbed remaining nowMs of here reached).2.1
    rw [here] at epoch time held young
    exact {
      epoch := epoch
      samples := samples
      time := time
      held := held
      due := fun _ _ _ goes => by
        cases goes
        exact current
      young := young }
  | stored _ _ _ here | advancing _ _ here | advanced _ _ _ here =>
    rw [here] at epoch time young
    exact ⟨epoch, samples, time, by simp [Poll.holds], by simp, young⟩
  | sampled nowMs of here =>
    have known := epoch of (by rw [here]; rfl)
    have been := (time nowMs (by rw [here]; rfl)).1
    refine ⟨by simp [World.returns, Poll.epoch], ?_, by simp [World.returns, Poll.time],
      by simp [World.returns, Poll.holds], by simp [World.returns],
      by simp [World.returns, Poll.epoch]⟩
    intro sample member
    rcases List.mem_cons.mp member with rfl | old
    · exact ⟨known, been⟩
    · exact samples sample old

/-! ### A cancel is final -/

/-- After a cancel: nothing is left, no schedule call is in progress, and only the poll that was
under way makes a sample, and leaves nothing. -/
structure Ceased (world : World) : Prop where
  nothing : world.remaining = 0
  shell : world.shell = .idle
  last : ∀ remaining nowMs epoch, world.poll = .due remaining nowMs epoch → remaining = 1
  once : world.sampledSince + (if world.poll = .idle then 0 else 1) ≤ 1

private theorem ceased_step {world next : World} {event : Event} (known : Known world)
    (ceased : world.cancelled = true → Ceased world) (undisturbed : Undisturbed world event)
    (stepped : step world event = some next) (cancelled : next.cancelled = true) :
    Ceased next := by
  cases moved_of_step stepped with
  | stayed => exact ceased cancelled
  | ticked ms =>
    obtain ⟨nothing, shell, last, once⟩ := ceased cancelled
    exact ⟨nothing, shell, last, once⟩
  | began => cases cancelled
  | read | placed | scheduled =>
    -- no schedule call was in progress
    rename_i here
    have idle := (ceased cancelled).shell
    rw [here] at idle
    cases idle
  | cancelled here =>
    refine ⟨rfl, here, undisturbed, ?_⟩
    simp only [Nat.zero_add]
    split <;> omega
  | loaded here some => exact absurd (ceased cancelled).nothing some
  | timed remaining of here =>
    obtain ⟨nothing, shell, last, once⟩ := ceased cancelled
    exact ⟨nothing, shell, by simp, by simpa [here] using once⟩
  | early remaining nowMs of here =>
    obtain ⟨nothing, shell, last, once⟩ := ceased cancelled
    exact ⟨nothing, shell, by simp [World.returns], Nat.le_trans (Nat.add_le_add_left
      (Nat.zero_le _) _) once⟩
  | due remaining nowMs of here reached =>
    obtain ⟨nothing, shell, last, once⟩ := ceased cancelled
    refine ⟨nothing, shell, fun _ _ _ goes => ?_, by simpa [here] using once⟩
    cases goes
    -- nothing is left, and the poll did not load nothing
    rcases (undisturbed remaining nowMs of here reached).2.2 with same | one
    · exact absurd (same.symm.trans nothing) (known.held remaining of (by rw [here]; rfl))
    · exact one
  | stored remaining nowMs of here =>
    obtain ⟨nothing, shell, last, once⟩ := ceased cancelled
    refine ⟨?_, shell, by simp, by simpa [here] using once⟩
    have one := last remaining nowMs of here
    subst one
    rfl
  | advancing _ _ here | advanced _ _ _ here =>
    obtain ⟨nothing, shell, last, once⟩ := ceased cancelled
    exact ⟨nothing, shell, by simp, by simpa [here] using once⟩
  | sampled nowMs of here =>
    obtain ⟨nothing, shell, last, once⟩ := ceased cancelled
    exact ⟨nothing, shell, by simp [World.returns], by simpa [here, World.returns] using once⟩

/-! ### No more samples than a schedule call was for -/

/-- What is left of a schedule call, with the samples that are made and the one that is counted,
is no more than it was for; and no more is what a poll has loaded of it. -/
structure Counted (world : World) (index : Nat) (samples : UInt32) : Prop where
  left : index + 1 = world.schedules.length →
    (world.samplesOf (index + 1)).length + world.poll.counts (index + 1) +
      world.remaining.toNat ≤ samples.toNat
  made : (world.samplesOf (index + 1)).length + world.poll.counts (index + 1) ≤ samples.toNat
  held : ∀ remaining, world.poll.holds = some (remaining, index + 1) →
    (world.samplesOf (index + 1)).length + remaining.toNat ≤ samples.toNat

private theorem one_le_toNat {remaining : UInt32} (some : remaining ≠ 0) : 1 ≤ remaining.toNat :=
  Nat.one_le_iff_ne_zero.mpr fun nothing => some (UInt32.toNat_inj.mp nothing)

private theorem toNat_pred {remaining : UInt32} (some : remaining ≠ 0) :
    (remaining - 1).toNat + 1 = remaining.toNat := by
  have positive := one_le_toNat some
  have below := remaining.toNat_lt
  rw [UInt32.toNat_sub]
  simp only [UInt32.reduceToNat]
  omega

/-- Nobody has polled a new schedule call. -/
theorem counted_new {world next : World} {samples intervalMs : UInt32} (known : Known world)
    (new : next = { world with
      remaining := samples
      shell := .idle
      schedules := world.schedules ++ [(samples, intervalMs)] }) :
    Counted next world.schedules.length samples := by
  have none : world.poll.counts (world.schedules.length + 1) = 0 :=
    counts_of_ne fun goes => absurd (known.epoch _ goes) (Nat.not_succ_le_self _)
  have enough : (world.samplesOf (world.schedules.length + 1)).length +
      world.poll.counts (world.schedules.length + 1) + samples.toNat ≤ samples.toNat := by
    rw [samplesOf_new known, none, List.length_nil]
    omega
  subst new
  refine ⟨fun _ => enough, Nat.le_trans (Nat.le_add_right ..) enough, fun remaining holds => ?_⟩
  exact absurd (known.epoch _ (epoch_of_holds holds)) (Nat.not_succ_le_self _)

private theorem counted_step {world next : World} {event : Event} {index : Nat}
    {samples intervalMs : UInt32} (known : Known world)
    (counted : ∀ index samples intervalMs,
      world.schedules[index]? = some (samples, intervalMs) → Counted world index samples)
    (undisturbed : Undisturbed world event) (stepped : step world event = some next)
    (made : next.schedules[index]? = some (samples, intervalMs)) :
    Counted next index samples := by
  cases moved_of_step stepped with
  | stayed => exact counted index samples intervalMs made
  | ticked | began | read | placed =>
    obtain ⟨left, so_far, held⟩ := counted index samples intervalMs made
    exact ⟨left, so_far, held⟩
  | scheduled count interval here =>
    rcases schedules_append made with ⟨older, below⟩ | ⟨rfl, new⟩
    · obtain ⟨left, so_far, held⟩ := counted index samples intervalMs older
      refine ⟨fun last => ?_, so_far, held⟩
      rw [List.length_append, List.length_singleton] at last
      omega
    · cases new
      exact counted_new known rfl
  | cancelled here =>
    obtain ⟨left, so_far, held⟩ := counted index samples intervalMs made
    exact ⟨fun _ => so_far, so_far, held⟩
  | loaded here some =>
    obtain ⟨left, so_far, held⟩ := counted index samples intervalMs made
    rw [here] at left so_far
    refine ⟨left, so_far, fun remaining holds => ?_⟩
    simp only [Poll.holds, Option.some.injEq, Prod.mk.injEq] at holds
    obtain ⟨rfl, last⟩ := holds
    have room : (world.samplesOf (index + 1)).length + world.remaining.toNat ≤ samples.toNat := by
      simpa [Poll.counts, Poll.counted] using left last.symm
    exact room
  | timed _ _ here | due _ _ _ here =>
    obtain ⟨left, so_far, held⟩ := counted index samples intervalMs made
    rw [here] at left so_far held
    exact ⟨left, so_far, held⟩
  | early _ _ _ here | advancing _ _ here | advanced _ _ _ here =>
    obtain ⟨left, so_far, held⟩ := counted index samples intervalMs made
    rw [here] at left so_far
    exact ⟨left, so_far, by simp [World.returns, Poll.holds]⟩
  | stored remaining nowMs of here =>
    obtain ⟨left, so_far, held⟩ := counted index samples intervalMs made
    have current := known.due remaining nowMs of here
    have fewer := toNat_pred (known.held remaining of (by rw [here]; rfl))
    rw [here] at so_far held
    by_cases mine : of = index + 1
    · -- one of what the poll holds is counted, and one less is left
      subst mine
      have room := held remaining rfl
      have one : (Poll.stored nowMs (index + 1)).counts (index + 1) = 1 := by
        simp [Poll.counts, Poll.counted]
      have enough : (world.samplesOf (index + 1)).length +
          (Poll.stored nowMs (index + 1)).counts (index + 1) + (remaining - 1).toNat ≤
            samples.toNat := by
        rw [one]
        omega
      exact ⟨fun _ => enough, Nat.le_trans (Nat.le_add_right ..) enough, by simp [Poll.holds]⟩
    · have none : (Poll.stored nowMs of).counts (index + 1) = 0 :=
        counts_of_ne (by simpa [Poll.epoch] using mine)
      have enough : (world.samplesOf (index + 1)).length +
          (Poll.stored nowMs of).counts (index + 1) ≤ samples.toNat := by
        rw [none]
        exact Nat.le_trans (Nat.add_le_add_left (Nat.zero_le _) _) so_far
      exact ⟨fun last => absurd (current.trans last.symm) mine, enough, by simp [Poll.holds]⟩
  | sampled nowMs of here =>
    obtain ⟨left, so_far, held⟩ := counted index samples intervalMs made
    rw [here] at left so_far
    -- what was counted is made
    have same : ((World.samplesOf { world.returns with
        samples := ⟨of, nowMs, world.nowMs⟩ :: world.samples
        sampledSince := world.sampledSince + 1 } (index + 1)).length +
          Poll.idle.counts (index + 1)) =
        (world.samplesOf (index + 1)).length + (Poll.returning nowMs of).counts (index + 1) := by
      rw [samplesOf_cons rfl]
      by_cases mine : of = index + 1
      · simp [mine, Poll.counts, Poll.counted]
      · simp [mine, Poll.counts, Poll.counted]
    refine ⟨fun last => ?_, Nat.le_trans (Nat.le_of_eq same) so_far,
      by simp [World.returns, Poll.holds]⟩
    exact Nat.le_trans (Nat.le_of_eq (congrArg (· + _) same)) (left last)

/-! ### An interval apart -/

/-- What a schedule call gives is in force until it returns, and is an interval that the
comparison can tell. -/
structure Given (world : World) : Prop where
  given : ∀ samples intervalMs, world.shell.given = some (samples, intervalMs) →
    world.intervalMs = intervalMs ∧ (samples = 1 ∨ intervalMs.toNat ≤ 2 ^ 31)

private theorem given_step {world next : World} {event : Event} (given : Given world)
    (undisturbed : Undisturbed world event) (stepped : step world event = some next) :
    Given next := by
  have kept := given.given
  cases moved_of_step stepped with
  | began samples intervalMs here some =>
    refine ⟨fun _ _ goes => ?_⟩
    cases goes
    rcases Nat.lt_or_ge 1 samples.toNat with more | few
    · exact ⟨rfl, .inr (undisturbed (UInt32.lt_iff_toNat_lt.mpr more))⟩
    · exact ⟨rfl, .inl (UInt32.toNat_inj.mp (Nat.le_antisymm few (one_le_toNat some)))⟩
  | read samples intervalMs here =>
    rw [here] at kept
    exact ⟨kept⟩
  | placed samples intervalMs startMs here =>
    rw [here] at kept
    exact ⟨kept⟩
  | scheduled => exact ⟨fun _ _ goes => by cases goes⟩
  | _ => exact ⟨kept⟩

/-- The samples of a schedule call are an interval apart, and so is the one that a poll is about
to make. Between schedule calls the next one waits for the interval since the last. -/
structure Spaced (world : World) (index : Nat) (samples intervalMs : UInt32) : Prop where
  short : samples = 1 ∨ intervalMs.toNat ≤ 2 ^ 31
  apart : (world.samplesOf (index + 1)).Pairwise fun later earlier =>
    earlier.nowMs + intervalMs.toNat ≤ later.nowMs ∧
      earlier.returnMs + intervalMs.toNat ≤ later.returnMs
  ready : ∀ nowMs, world.poll.sample = some (index + 1, nowMs) →
    ∀ earlier ∈ world.samplesOf (index + 1), earlier.nowMs + intervalMs.toNat ≤ nowMs
  force : index + 1 = world.schedules.length → world.shell = .idle →
    world.intervalMs = intervalMs
  moves : ∀ nowMs read, world.poll = .advancing nowMs read (index + 1) →
    index + 1 = world.schedules.length → world.shell = .idle → read = intervalMs
  moved : ∀ nowMs, world.poll = .returning nowMs (index + 1) →
    index + 1 = world.schedules.length → world.shell = .idle →
      world.nextMs = millis nowMs + intervalMs
  waits : index + 1 = world.schedules.length → world.shell = .idle →
    (∀ nowMs, world.poll.sample ≠ some (index + 1, nowMs)) →
      ∀ last, (world.samplesOf (index + 1)).head? = some last →
        world.nextMs = millis last.nowMs + intervalMs

/-- The comparison tells an interval of up to half the clock's range. -/
theorem apart_of_reached {last nowMs : Nat} {intervalMs : UInt32} (ordered : last ≤ nowMs)
    (short : intervalMs.toNat ≤ 2 ^ 31)
    (reached : isEarly (millis nowMs) (millis last + intervalMs) = false) :
    last + intervalMs.toNat ≤ nowMs := by
  simp only [isEarly, millis, decide_eq_false_iff_not, UInt32.le_iff_toNat_le, UInt32.toNat_sub,
    UInt32.toNat_add, UInt32.toNat_ofNat', UInt32.reduceToNat] at reached
  have := Nat.div_add_mod last (2 ^ 32)
  have := Nat.div_add_mod nowMs (2 ^ 32)
  omega

private theorem before_of_time {world : World} {nowMs epoch : Nat} {earlier : Sample}
    (known : Known world)
    (read : world.poll.time = some nowMs) (member : earlier ∈ world.samplesOf epoch) :
    earlier.nowMs ≤ nowMs :=
  (known.time nowMs read).2 earlier (List.mem_filter.mp member).1

/-- A poll that finds a sample due finds it an interval after every one before. -/
theorem ready_of_due {world : World} {index nowMs : Nat} {samples intervalMs remaining : UInt32}
    (known : Known world) (counted : Counted world index samples)
    (spaced : Spaced world index samples intervalMs)
    (here : world.poll = .timed remaining nowMs (index + 1))
    (last : index + 1 = world.schedules.length) (idle : world.shell = .idle)
    (reached : isEarly (millis nowMs) world.nextMs = false) :
    ∀ earlier ∈ world.samplesOf (index + 1), earlier.nowMs + intervalMs.toNat ≤ nowMs := by
  intro earlier member
  cases samples_eq : world.samplesOf (index + 1) with
  | nil =>
    rw [samples_eq] at member
    cases member
  | cons final rest =>
    have latest : final ∈ world.samplesOf (index + 1) := by
      rw [samples_eq]
      exact List.mem_cons_self
    have ordered := before_of_time known (by rw [here]; rfl) latest
    have waits := spaced.waits last idle (by simp [here, Poll.sample]) final (by simp [samples_eq])
    -- a call for one sample has made none
    have tells : intervalMs.toNat ≤ 2 ^ 31 := by
      rcases spaced.short with rfl | short
      · have room := counted.held remaining (by rw [here]; rfl)
        have some := toNat_pred (known.held remaining (index + 1) (by rw [here]; rfl))
        rw [samples_eq, List.length_cons] at room
        simp only [UInt32.reduceToNat] at room
        omega
      · exact short
    rw [waits] at reached
    have enough := apart_of_reached ordered tells reached
    rw [samples_eq] at member
    rcases List.mem_cons.mp member with rfl | older
    · exact enough
    · have apart := spaced.apart
      rw [samples_eq] at apart
      exact Nat.le_trans (List.rel_of_pairwise_cons apart older).1 ordered

/-- A new schedule call has no samples yet. -/
theorem spaced_new {world next : World} {samples intervalMs : UInt32} (known : Known world)
    (given : Given world) (here : world.shell = .nextStored samples intervalMs)
    (new : next = { world with
      remaining := samples
      shell := .idle
      schedules := world.schedules ++ [(samples, intervalMs)] }) :
    Spaced next world.schedules.length samples intervalMs := by
  obtain ⟨force, short⟩ := given.given samples intervalMs (by rw [here]; rfl)
  have none : next.samplesOf (world.schedules.length + 1) = [] := new ▸ samplesOf_new known
  subst new
  refine ⟨short, ?_, ?_, fun _ _ => force, fun nowMs read goes => ?_, fun nowMs goes => ?_, ?_⟩
  · rw [none]
    exact .nil
  · simp [none]
  · exact absurd (known.epoch _ (congrArg Poll.epoch goes)) (Nat.not_succ_le_self _)
  · exact absurd (known.epoch _ (congrArg Poll.epoch goes)) (Nat.not_succ_le_self _)
  · simp [none]

/-- While a poll works for an older schedule call, the latest has no samples. -/
theorem none_of_older {world : World} {of index : Nat} (known : Known world)
    (works : world.poll.epoch = some of) (last : index + 1 = world.schedules.length)
    (other : of ≠ index + 1) : world.samplesOf (index + 1) = [] := by
  have older : of < world.schedules.length := by
    have := known.epoch of works
    omega
  rw [last]
  exact known.young of works older

/-- The sample that was due is made, and the next waits for its interval. -/
theorem spaced_sampled {world next : World} {index nowMs of : Nat}
    {samples intervalMs : UInt32} (known : Known world)
    (spaced : Spaced world index samples intervalMs) (here : world.poll = .returning nowMs of)
    (late : ∀ earlier ∈ world.samplesOf of,
      earlier.returnMs + nowMs ≤ world.nowMs + earlier.nowMs)
    (new : next = { world.returns with
      samples := ⟨of, nowMs, world.nowMs⟩ :: world.samples
      sampledSince := world.sampledSince + 1 }) : Spaced next index samples intervalMs := by
  obtain ⟨short, apart, ready, force, moves, moved, waits⟩ := spaced
  have sampled : next.samples = ⟨of, nowMs, world.nowMs⟩ :: world.samples := by rw [new]
  have grown : ∀ epoch, next.samplesOf epoch =
      if of = epoch then ⟨of, nowMs, world.nowMs⟩ :: world.samplesOf epoch
      else world.samplesOf epoch := samplesOf_cons sampled
  subst new
  refine ⟨short, ?_, by simp [World.returns, Poll.sample], force, by simp [World.returns],
    by simp [World.returns], ?_⟩
  · rw [grown]
    split
    · rename_i mine
      subst mine
      refine List.pairwise_cons.mpr ⟨fun earlier member => ?_, apart⟩
      have read := ready nowMs (by rw [here]; rfl) earlier member
      have returned := late earlier member
      dsimp only
      exact ⟨read, by omega⟩
    · exact apart
  · intro last idle _ final
    change index + 1 = world.schedules.length at last
    rw [grown]
    split
    · rename_i mine
      subst mine
      rintro ⟨⟩
      exact moved nowMs here last idle
    · rename_i other
      rw [none_of_older known (by rw [here]; rfl) last other]
      rintro ⟨⟩

private theorem spaced_step {world next : World} {event : Event} {index : Nat}
    {samples intervalMs : UInt32} (known : Known world) (given : Given world)
    (counted : ∀ index samples intervalMs,
      world.schedules[index]? = some (samples, intervalMs) → Counted world index samples)
    (spaced : ∀ index samples intervalMs,
      world.schedules[index]? = some (samples, intervalMs) →
        Spaced world index samples intervalMs)
    (undisturbed : Undisturbed world event) (stepped : step world event = some next)
    (made : next.schedules[index]? = some (samples, intervalMs)) :
    Spaced next index samples intervalMs := by
  cases moved_of_step stepped with
  | stayed => exact spaced index samples intervalMs made
  | ticked | cancelled =>
    obtain ⟨short, apart, ready, force, moves, moved, waits⟩ := spaced index samples intervalMs made
    exact ⟨short, apart, ready, force, moves, moved, waits⟩
  | began | read | placed =>
    -- during a schedule call nothing is said of the next sample
    obtain ⟨short, apart, ready, force, moves, moved, waits⟩ := spaced index samples intervalMs made
    exact ⟨short, apart, ready, by simp, by simp, by simp, by simp⟩
  | scheduled count interval here =>
    rcases schedules_append made with ⟨older, below⟩ | ⟨rfl, new⟩
    · obtain ⟨short, apart, ready, force, moves, moved, waits⟩ :=
        spaced index samples intervalMs older
      have never : index + 1 ≠ (world.schedules ++ [(count, interval)]).length := by
        rw [List.length_append, List.length_singleton]
        omega
      exact ⟨short, apart, ready, fun last => absurd last never,
        fun _ _ _ last => absurd last never, fun _ _ last => absurd last never,
        fun last => absurd last never⟩
    · cases new
      exact spaced_new known given here rfl
  | loaded here | timed _ _ here =>
    obtain ⟨short, apart, ready, force, moves, moved, waits⟩ := spaced index samples intervalMs made
    rw [here] at waits
    exact ⟨short, apart, by simp [Poll.sample], force, by simp, by simp, waits⟩
  | early remaining nowMs of here =>
    obtain ⟨short, apart, ready, force, moves, moved, waits⟩ := spaced index samples intervalMs made
    rw [here] at waits
    exact ⟨short, apart, by simp [World.returns, Poll.sample], force, by simp [World.returns],
      by simp [World.returns], waits⟩
  | due remaining nowMs of here reached =>
    obtain ⟨idle, current, -⟩ := undisturbed remaining nowMs of here reached
    have now := spaced index samples intervalMs made
    refine ⟨now.short, now.apart, fun other goes => ?_, now.force, by simp, by simp,
      fun last _ fresh => ?_⟩
    · cases goes
      have ready := ready_of_due known (counted index samples intervalMs made) now here current
        idle reached
      exact ready
    · rw [current.trans last.symm] at fresh
      exact absurd rfl (fresh nowMs)
  | stored remaining nowMs of here =>
    obtain ⟨short, apart, ready, force, moves, moved, waits⟩ := spaced index samples intervalMs made
    rw [here] at ready waits
    exact ⟨short, apart, ready, force, by simp, by simp, waits⟩
  | advancing nowMs of here =>
    obtain ⟨short, apart, ready, force, moves, moved, waits⟩ := spaced index samples intervalMs made
    rw [here] at ready waits
    refine ⟨short, apart, ready, force, fun _ _ goes last idle => ?_, by simp, waits⟩
    cases goes
    exact force last idle
  | advanced nowMs interval of here =>
    obtain ⟨short, apart, ready, force, moves, moved, waits⟩ := spaced index samples intervalMs made
    refine ⟨short, apart, ?_, force, by simp, fun _ goes last idle => ?_,
      fun last idle fresh final latest => ?_⟩
    · rw [here] at ready
      exact ready
    · cases goes
      rw [moves nowMs interval here last idle]
    · -- the poll is of an older call, and of this one there are none
      have other : of ≠ index + 1 := fun mine => fresh nowMs (by rw [mine]; rfl)
      have none := none_of_older known (by rw [here]; rfl) last other
      change (world.samplesOf (index + 1)).head? = some final at latest
      rw [none] at latest
      cases latest
  | sampled nowMs of here =>
    exact spaced_sampled known (spaced index samples intervalMs made) here
      (undisturbed nowMs of here) rfl

/-! ### Over a run -/

structure Kept (world : World) : Prop where
  known : Known world
  ceased : world.cancelled = true → Ceased world
  counted : ∀ index samples intervalMs,
    world.schedules[index]? = some (samples, intervalMs) → Counted world index samples
  given : Given world
  spaced : ∀ index samples intervalMs,
    world.schedules[index]? = some (samples, intervalMs) → Spaced world index samples intervalMs

private theorem kept_start (nowMs : Nat) : Kept (.start nowMs) where
  known := by
    constructor
    all_goals simp [World.start, Poll.epoch, Poll.time, Poll.holds]
  ceased := by simp [World.start]
  counted := by simp [World.start]
  given := ⟨by simp [World.start, Shell.given]⟩
  spaced := by simp [World.start]

private theorem kept_step {world next : World} {event : Event} (kept : Kept world)
    (undisturbed : Undisturbed world event) (stepped : step world event = some next) :
    Kept next where
  known := known_step kept.known undisturbed stepped
  ceased := ceased_step kept.known kept.ceased undisturbed stepped
  counted := fun _ _ _ => counted_step kept.known kept.counted undisturbed stepped
  given := given_step kept.given undisturbed stepped
  spaced := fun _ _ _ =>
    spaced_step kept.known kept.given kept.counted kept.spaced undisturbed stepped

private theorem promises_of_kept {world : World} (kept : Kept world) : Promises world where
  final cancelled := by
    have ceased := kept.ceased cancelled
    refine ⟨Nat.le_trans (Nat.le_add_right ..) ceased.once, fun _ => ?_⟩
    simp [World.active, ceased.nothing]
  bounded index samples intervalMs made :=
    ⟨Nat.le_trans (Nat.le_add_right ..) (kept.counted index samples intervalMs made).made,
      (kept.spaced index samples intervalMs made).apart.imp And.right⟩

/-- As long as no call falls into a poll that samples, a cancel is final and a schedule call is
worth its samples and no more, an interval apart, however the two tasks take turns. -/
theorem debug_test_promised (nowMs : Nat) {events : List Event} {world : World}
    (undisturbed : Along step Undisturbed (.start nowMs) events)
    (ran : run step (.start nowMs) events = some world) : Promises world :=
  promises_of_kept (run_invariant_along kept_step (kept_start nowMs) undisturbed ran)

/-- Three samples ten milliseconds apart across the wrap of the clock, polled while the shell is
still scheduling them and early in between, and a cancel that comes into the last. -/
def sampledThrice : List Event :=
  [.poll, .schedule 3 10, .poll, .readClock, .storeNext, .storeRemaining, .poll, .pollClock,
    .tick 1, .pollNext, .pollStore, .pollInterval, .pollAdvance, .pollReturn,
    .tick 4, .poll, .pollClock, .pollNext,
    .tick 8, .poll, .pollClock, .pollNext, .pollStore, .tick 1, .pollInterval, .pollAdvance,
    .pollReturn, .poll, .tick 10, .pollClock, .pollNext, .cancel, .pollStore, .tick 2,
    .pollInterval, .pollAdvance, .pollReturn]

theorem debug_test_promised_thrice : ∃ world,
    run step (.start 4294967290) sampledThrice = some world ∧ world.cancelled = true ∧
    (world.samplesOf 1).map (·.returnMs) = [4294967316, 4294967304, 4294967291] ∧
    Promises world := by
  have undisturbed : Along step Undisturbed (.start 4294967290) sampledThrice := by
    have free {world next : World} {event : Event} {rest : List Event}
        (stepped : step world event = some next) (calm : Undisturbed world event)
        (after : Along step Undisturbed next rest) :
        Along step Undisturbed world (event :: rest) := along_of_step calm stepped after
    refine free rfl trivial (free rfl (fun _ => by decide) ?_)
    iterate 3 refine free rfl trivial ?_
    refine free rfl (fun _ _ _ due => by cases due) ?_
    iterate 3 refine free rfl trivial ?_
    refine free rfl (fun _ _ _ timed _ => by cases timed; exact ⟨rfl, rfl, .inl rfl⟩) ?_
    iterate 3 refine free rfl trivial ?_
    refine free rfl (fun _ _ goes _ member => by cases goes; cases member) ?_
    iterate 3 refine free rfl trivial ?_
    refine free rfl (fun _ _ _ timed reached => ?_) ?_
    · cases timed
      exact absurd reached (by decide)
    iterate 3 refine free rfl trivial ?_
    refine free rfl (fun _ _ _ timed _ => by cases timed; exact ⟨rfl, rfl, .inl rfl⟩) ?_
    iterate 4 refine free rfl trivial ?_
    refine free rfl (fun _ _ goes => ?_) ?_
    · cases goes
      decide
    iterate 3 refine free rfl trivial ?_
    refine free rfl (fun _ _ _ timed _ => by cases timed; exact ⟨rfl, rfl, .inl rfl⟩) ?_
    refine free rfl (fun _ _ _ due => by cases due; rfl) ?_
    iterate 4 refine free rfl trivial ?_
    refine free rfl (fun _ _ goes => ?_) trivial
    cases goes
    decide
  have ran : run step (.start 4294967290) sampledThrice =
      some ((run step (.start 4294967290) sampledThrice).getD {}) := rfl
  exact ⟨_, ran, by decide, by decide, debug_test_promised _ undisturbed ran⟩

/-- Five samples, cancelled while the poll of the first has yet to store that four are left. -/
def revived : List Event :=
  [.schedule 5 10, .readClock, .storeNext, .storeRemaining, .poll, .pollClock, .pollNext,
    .cancel, .pollStore, .pollInterval, .pollAdvance, .pollReturn]

theorem cancel_undone : ¬ ∀ nowMs events world,
    run step (.start nowMs) events = some world → Promises world := by
  intro promised
  have ran : run step (.start 0) revived = some ((run step (.start 0) revived).getD {}) := rfl
  have ended := ((promised 0 revived _ ran).final (by decide)).2 (by decide)
  exact absurd ended (by decide)

end BallyOS.DebugTests
