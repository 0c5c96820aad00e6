import Mathlib.Data.Fintype.EquivFin
import Mathlib.Data.Fintype.Lattice
import BallyOS.Terminal.Isolation

/-! Which origin loses its slot to a new one. A slot is stamped when it is given out
and by every pass of `pump`, and not by the messages of the origin that has it. -/
namespace BallyOS.Terminal
open Library

variable {E : Type}

/-- A call of `pump`: which it is, and the clock reading it has for all slots. -/
structure Call where
  number : Nat
  now : UInt64
deriving DecidableEq

/-- What stamps a slot: the message it is given out for, or a call that passes over it. -/
inductive Stamping
  | message (timestamp : UInt64)
  | call (call : Call)

/-- The responder with what came to it: the number of the latest message of each origin,
and what came last to stamp its slot. -/
structure Hearing (E : Type) where
  responder : Responder E
  messages : Nat := 0
  latest : Origin → Nat := fun _ => 0
  stamping : Origin → Stamping := fun _ => .message 0
  /-- The latest call, and the slots it has yet to come to. -/
  call : Call := ⟨0, 0⟩
  ahead : List (Fin 3) := []

namespace Stamping

def time : Stamping → UInt64
  | .message timestamp => timestamp
  | .call latest => latest.now

def Earlier (i j : Fin 3) (first second : UInt64) : Prop :=
  first < second ∨ first = second ∧ i < j

/-- The first of two slots was last stamped sooner than the other. -/
def Sooner (i j : Fin 3) : Stamping → Stamping → Prop
  -- One call has one clock reading for both, and the pool's order is left.
  | .call first, .call second => if first = second then i < j else Earlier i j first.now second.now
  | .call first, .message second => Earlier i j first.now second
  | .message first, .call second => Earlier i j first second.now
  | .message first, .message second => Earlier i j first second

instance (i j : Fin 3) (first second : UInt64) : Decidable (Earlier i j first second) :=
  inferInstanceAs (Decidable (_ ∨ _))

instance (i j : Fin 3) : (first second : Stamping) → Decidable (Sooner i j first second)
  | .call first, .call second =>
    inferInstanceAs (Decidable (if first = second then _ else Earlier i j first.now second.now))
  | .call first, .message second => inferInstanceAs (Decidable (Earlier i j first.now second))
  | .message first, .call second => inferInstanceAs (Decidable (Earlier i j first second.now))
  | .message first, .message second => inferInstanceAs (Decidable (Earlier i j first second))

private theorem sooner_iff (i j : Fin 3) (first second : Stamping) :
    Sooner i j first second ↔
      first.time < second.time ∨ first.time = second.time ∧ i < j := by
  cases first with
  | message timestamp => cases second <;> rfl
  | call latest =>
    cases second with
    | message timestamp => rfl
    | call other =>
      by_cases same : latest = other
      · simp [Sooner, same]
      · rw [Sooner, if_neg same]
        rfl

end Stamping

namespace Hearing

/-- What comes to the responder. A call of `pump` goes from slot to slot, and misses one
it does not get the lock for. -/
inductive Turn
  | comes (event : Event)
  | call (now : UInt64)
  | visit (locked : Bool)

def hear (hearing : Hearing E) (event : Event) (responder : Responder E) : Hearing E :=
  match event with
  | .terminalIn _ origin timestamp plaintext locked =>
    { hearing with
      responder
      messages := hearing.messages + 1
      latest := Function.update hearing.latest origin (hearing.messages + 1)
      stamping :=
        if plaintext ≠ [] ∧ locked = true ∧ hearing.responder.find origin = none then
          Function.update hearing.stamping origin (.message timestamp)
        else hearing.stamping }
  | _ => { hearing with responder }

def visit (hearing : Hearing E) (i : Fin 3) (rest : List (Fin 3)) (locked : Bool) : Hearing E :=
  if locked = true ∧ (hearing.responder.slots i).used = true then
    { hearing with
      responder := hearing.responder.pumpTake i hearing.call.now
      stamping := Function.update hearing.stamping (hearing.responder.slots i).origin
        (.call hearing.call)
      ahead := rest }
  else { hearing with ahead := rest }

def step (config : Config E) : Machine (Hearing E) Turn
  | _, .comes (.pumpTake _ _) => none
  | hearing, .comes event =>
    (Terminal.step config hearing.responder event).map (hearing.hear event)
  | hearing, .call now =>
    match hearing.responder.pump, hearing.ahead with
    | .idle, [] => some { hearing with
        call := ⟨hearing.call.number + 1, now⟩
        ahead := List.finRange 3 }
    | _, _ => none
  | hearing, .visit locked =>
    match hearing.responder.pump, hearing.ahead with
    | .idle, i :: rest => some (hearing.visit i rest locked)
    | _, _ => none

def start (editor : E) : Hearing E := { responder := Terminal.start editor }

/-- The latest message of the slot's origin is older than that of any other slot's. -/
def LeastRecent (hearing : Hearing E) (i : Fin 3) : Prop :=
  ∀ j, j ≠ i → hearing.latest (hearing.responder.slots i).origin <
    hearing.latest (hearing.responder.slots j).origin

/-- What came last to stamp the one slot came sooner than what came last for the other. -/
def Sooner (hearing : Hearing E) (i j : Fin 3) : Prop :=
  Stamping.Sooner i j (hearing.stamping (hearing.responder.slots i).origin)
    (hearing.stamping (hearing.responder.slots j).origin)

/-- Messages are numbered, every origin with a slot has sent one, and the slots have the
stamps that came for them. -/
structure Numbered (hearing : Hearing E) : Prop where
  ordered : hearing.responder.Ordered
  past : ∀ origin, hearing.latest origin ≤ hearing.messages
  apart : ∀ first second, hearing.latest first = hearing.latest second →
    hearing.latest first ≠ 0 → first = second
  heard : ∀ i, (hearing.responder.slots i).used = true →
    hearing.latest (hearing.responder.slots i).origin ≠ 0
  stamped : ∀ i, (hearing.responder.slots i).used = true →
    (hearing.responder.slots i).lastUsed =
      (hearing.stamping (hearing.responder.slots i).origin).time

end Hearing

/-- A slot in use goes to another origin. -/
def Evicted (before after : Responder E) (i : Fin 3) : Prop :=
  (before.slots i).used = true ∧ (after.slots i).origin ≠ (before.slots i).origin

namespace Responder

/-- The slot was in use before, with the same origin and the same stamp. -/
structure Keeps (before after : Slot) : Prop where
  used : before.used = true
  origin : after.origin = before.origin
  stamp : after.lastUsed = before.lastUsed

private theorem keeps_setSlot (world : Responder E) {k : Fin 3} {slot : Slot}
    (use : slot.used = (world.slots k).used) (origin : slot.origin = (world.slots k).origin)
    (stamp : slot.lastUsed = (world.slots k).lastUsed) (i : Fin 3)
    (used : ((world.setSlot k slot).slots i).used = true) :
    Keeps (world.slots i) ((world.setSlot k slot).slots i) := by
  by_cases here : i = k
  · subst here
    rw [setSlot_self] at used ⊢
    exact ⟨use ▸ used, origin, stamp⟩
  · rw [setSlot_other world slot here] at used ⊢
    exact ⟨used, rfl, rfl⟩

private theorem keeps_async (world : Responder E) (origin : Origin) (text : Text) (locked : Bool)
    (i : Fin 3) : ((world.pushAsyncOutput origin text locked).slots i).used = true →
      Keeps (world.slots i) ((world.pushAsyncOutput origin text locked).slots i) := by
  unfold pushAsyncOutput
  dsimp only
  split
  · exact fun used => ⟨used, rfl, rfl⟩
  split
  · exact fun used => ⟨used, rfl, rfl⟩
  split
  · exact fun used => ⟨used, rfl, rfl⟩
  split
  · refine keeps_setSlot world ?_ ?_ ?_ i
    · rfl
    · rfl
    · rfl
  · exact fun used => ⟨used, rfl, rfl⟩

private theorem keeps_deliver (world : Responder E) (origin : Origin) (text : Text) (status : UInt8)
    (i : Fin 3) : ((world.deliverCommandOutput origin text status).slots i).used = true →
      Keeps (world.slots i) ((world.deliverCommandOutput origin text status).slots i) := by
  unfold deliverCommandOutput
  split
  · refine keeps_setSlot world ?_ ?_ ?_ i
    · rfl
    · rfl
    · rfl
  · exact fun used => ⟨used, rfl, rfl⟩

/-- A slot is given out for a message of an origin that has none, with its timestamp. -/
theorem keeps_terminalIn (world : Responder E) (target : LinkTarget) (origin : Origin)
    (timestamp : UInt64) (plaintext : Text) (locked : Bool) (i : Fin 3)
    (used : ((world.onTerminalIn target origin timestamp plaintext locked).slots i).used = true) :
    Keeps (world.slots i)
        ((world.onTerminalIn target origin timestamp plaintext locked).slots i) ∨
      (plaintext ≠ [] ∧ locked = true ∧ world.find origin = none) ∧
        ((world.onTerminalIn target origin timestamp plaintext locked).slots i).origin = origin ∧
        ((world.onTerminalIn target origin timestamp plaintext locked).slots i).lastUsed =
          timestamp := by
  by_cases bytes : plaintext = []
  · rw [onTerminalIn, if_pos bytes] at used ⊢
    exact .inl ⟨used, rfl, rfl⟩
  cases locked with
  | false =>
    rw [onTerminalIn, if_neg bytes, if_pos rfl] at used ⊢
    exact .inl ⟨used, rfl, rfl⟩
  | true =>
    cases found : world.find origin with
    | some k =>
      refine .inl ?_
      revert used
      unfold onTerminalIn
      rw [if_neg bytes, if_neg (by decide), findOrAlloc_found found]
      dsimp only
      refine keeps_setSlot world ?_ ?_ ?_ i
      · rfl
      · rfl
      · rfl
    | none =>
      have allocated := onTerminalIn_new found bytes target timestamp
      by_cases here : i = world.victim
      · subst here
        refine .inr ⟨⟨bytes, rfl, rfl⟩, allocated.origin, ?_⟩
        unfold onTerminalIn findOrAlloc
        rw [if_neg bytes, if_neg (by decide), found]
        simp [setSlot]
      · have same := allocated.others i here
        exact .inl ⟨same ▸ used, by rw [same], by rw [same]⟩

/-- Without a message or a pass of `pump`, every stamp stays. -/
theorem keeps_of_step {config : Config E} {world next : Responder E} {event : Event}
    (ordered : Ordered world) (stepped : step config world event = some next)
    (silent : ∀ target origin timestamp plaintext locked,
      event ≠ .terminalIn target origin timestamp plaintext locked)
    (still : ∀ i now, event ≠ .pumpTake i now) (i : Fin 3)
    (used : (next.slots i).used = true) : Keeps (world.slots i) (next.slots i) := by
  cases event with
  | terminalIn target origin timestamp plaintext locked => exact absurd rfl (silent _ _ _ _ _)
  | bind target =>
    cases stepped
    exact ⟨used, rfl, rfl⟩
  | unbind target locked =>
    simp only [step, Option.ite_none_left_eq_some, Option.some.injEq] at stepped
    obtain ⟨_, rfl⟩ := stepped
    simp only [unbindTarget] at used
    split at used
    · contradiction
    · rename_i stays
      refine ⟨used, ?_, ?_⟩
      all_goals simp only [unbindTarget, if_neg stays]
  | asyncOutput origin text locked =>
    cases stepped
    exact keeps_async world origin text locked i used
  | commandResult text status =>
    simp only [step] at stepped
    split at stepped
    · rename_i command rest queued
      cases stepped
      have delivered := keeps_deliver { world with queue := rest } command.origin text status i used
      exact ⟨delivered.used, delivered.origin, delivered.stamp⟩
    · contradiction
  | pumpTake i now => exact absurd rfl (still i now)
  | pumpBegin accepted =>
    simp only [step] at stepped
    split at stepped
    · rename_i taken
      cases stepped
      rw [(passed_begin ordered taken config accepted).slots] at used ⊢
      exact ⟨used, rfl, rfl⟩
    · contradiction
  | pumpPoll accepted =>
    simp only [step] at stepped
    split at stepped
    · rename_i polling
      cases stepped
      rw [(passed_poll ordered polling config accepted).slots] at used ⊢
      exact ⟨used, rfl, rfl⟩
    · contradiction

/-- No other slot has an earlier stamp, and none before it has the same. -/
def Foremost (world : Responder E) (i : Fin 3) : Prop :=
  ∀ j, j ≠ i → (world.slots i).lastUsed < (world.slots j).lastUsed ∨
    (world.slots i).lastUsed = (world.slots j).lastUsed ∧ i < j

/-- With every slot taken, the one given out is the foremost. -/
theorem foremost_victim {world : Responder E} (full : ∀ i, (world.slots i).used = true) :
    world.Foremost world.victim := by
  intro j other
  unfold victim at other ⊢
  simp only [victimFrom, full, Bool.true_eq_false, if_false] at other ⊢
  have each : j = 0 ∨ j = 1 ∨ j = 2 := by omega
  simp only [UInt64.lt_iff_toNat_lt, ← UInt64.toNat_inj, Fin.lt_def] at other ⊢
  rcases each with rfl | rfl | rfl <;> grind

private theorem foremost_unique {world : Responder E} {i j : Fin 3} (first : world.Foremost i)
    (second : world.Foremost j) : i = j := by
  refine Classical.byContradiction fun other => ?_
  have before := first j (Ne.symm other)
  have after := second i other
  simp only [UInt64.lt_iff_toNat_lt, ← UInt64.toNat_inj, Fin.lt_def] at before after
  omega

/-- A message of a new origin, with every slot taken, takes the victim's. -/
theorem evicted_iff_victim {world : Responder E} (full : ∀ i, (world.slots i).used = true)
    (new : world.find origin = none) (bytes : plaintext ≠ []) (target : LinkTarget)
    (timestamp : UInt64) (i : Fin 3) :
    Evicted world (world.onTerminalIn target origin timestamp plaintext true) i ↔
      i = world.victim := by
  have allocated := onTerminalIn_new new bytes target timestamp
  constructor
  · rintro ⟨_, given⟩
    refine Classical.byContradiction fun other => ?_
    rw [allocated.others i other] at given
    exact given rfl
  · rintro rfl
    refine ⟨full _, ?_⟩
    rw [allocated.origin]
    exact Ne.symm (find_none new _ (full _))

end Responder

namespace Hearing

private theorem numbered_start (editor : E) : (start editor).Numbered where
  ordered := Responder.ordered_start editor
  past := fun _ => Nat.le_refl 0
  apart := fun _ _ _ sent => absurd rfl sent
  heard := fun _ used => by contradiction
  stamped := fun _ used => by contradiction

/-- One more message: it is later than all before it. -/
theorem Numbered.message {hearing : Hearing E} (numbered : hearing.Numbered) (sender : Origin) :
    (∀ origin, Function.update hearing.latest sender (hearing.messages + 1) origin ≤
      hearing.messages + 1) ∧
    ∀ first second, Function.update hearing.latest sender (hearing.messages + 1) first =
        Function.update hearing.latest sender (hearing.messages + 1) second →
      Function.update hearing.latest sender (hearing.messages + 1) first ≠ 0 → first = second := by
  have past (origin : Origin) := numbered.past origin
  constructor
  · intro origin
    rw [Function.update_apply]
    split
    · exact Nat.le_refl _
    · exact Nat.le_succ_of_le (past origin)
  · intro first second same sent
    simp only [Function.update_apply] at same sent
    split at same
    · rename_i mine
      split at same
      · rename_i mine'
        rw [mine, mine']
      · have := past second
        omega
    · rename_i other
      rw [if_neg other] at sent
      split at same
      · have := past first
        omega
      · exact numbered.apart first second same sent

/-- What keeps every stamp keeps the numbers. -/
theorem Numbered.keeps {hearing : Hearing E} (numbered : hearing.Numbered) {next : Responder E}
    (ordered : next.Ordered) (kept : ∀ i, (next.slots i).used = true →
      Responder.Keeps (hearing.responder.slots i) (next.slots i)) :
    ({ hearing with responder := next } : Hearing E).Numbered where
  ordered := ordered
  past := numbered.past
  apart := numbered.apart
  heard i used := by
    dsimp only
    rw [(kept i used).origin]
    exact numbered.heard i (kept i used).used
  stamped i used := by
    dsimp only at used ⊢
    rw [(kept i used).stamp, (kept i used).origin]
    exact numbered.stamped i (kept i used).used

private theorem Numbered.terminalIn {hearing : Hearing E} (numbered : hearing.Numbered)
    (target : LinkTarget) (origin : Origin) (timestamp : UInt64) (plaintext : Text) (locked : Bool)
    (ordered :
      (hearing.responder.onTerminalIn target origin timestamp plaintext locked).Ordered) :
    (hearing.hear (.terminalIn target origin timestamp plaintext locked)
      (hearing.responder.onTerminalIn target origin timestamp plaintext locked)).Numbered := by
  have message := numbered.message origin
  have keeps :=
    Responder.keeps_terminalIn hearing.responder target origin timestamp plaintext locked
  refine ⟨ordered, message.1, message.2, fun i used => ?_, fun i used => ?_⟩
  · dsimp only [hear] at used ⊢
    rw [Function.update_apply]
    split
    · exact Nat.succ_ne_zero _
    · rename_i other
      rcases keeps i used with kept | ⟨-, given, -⟩
      · rw [kept.origin]
        exact numbered.heard i kept.used
      · contradiction
  · dsimp only [hear] at used ⊢
    rcases keeps i used with kept | ⟨opens, given, stamp⟩
    · rw [kept.stamp, kept.origin, numbered.stamped i kept.used]
      by_cases opens : plaintext ≠ [] ∧ locked = true ∧ hearing.responder.find origin = none
      · have other := Responder.find_none opens.2.2 i kept.used
        rw [if_pos opens, Function.update_of_ne other]
      · rw [if_neg opens]
    · rw [stamp, given, if_pos opens, Function.update_self]
      rfl

private theorem Numbered.visit {hearing : Hearing E} (numbered : hearing.Numbered)
    (idle : hearing.responder.pump = .idle) (i : Fin 3) (rest : List (Fin 3)) (locked : Bool) :
    (hearing.visit i rest locked).Numbered := by
  unfold Hearing.visit
  split
  · rename_i taken
    have kept (j : Fin 3) := Responder.pumpTake_kept hearing.responder i j hearing.call.now
    refine ⟨Responder.ordered_take numbered.ordered idle taken.2 _, numbered.past, numbered.apart,
      fun j used => ?_, fun j used => ?_⟩
    · dsimp only at used ⊢
      rw [(kept j).2.1]
      exact numbered.heard j ((kept j).1 ▸ used)
    · dsimp only at used ⊢
      rw [(kept j).2.1]
      by_cases here : j = i
      · subst here
        rw [Function.update_self, Responder.pumpTake_self]
        rfl
      · have use := (kept j).1 ▸ used
        have other : (hearing.responder.slots j).origin ≠ (hearing.responder.slots i).origin :=
          fun same => here (numbered.ordered.apart j i use taken.2 same)
        rw [Function.update_of_ne other, Responder.pumpTake_other _ _ here]
        exact numbered.stamped j use
  · exact ⟨numbered.ordered, numbered.past, numbered.apart, numbered.heard, numbered.stamped⟩

private theorem comes_of_step {config : Config E} {hearing next : Hearing E} {event : Event}
    (stepped : hearing.step config (.comes event) = some next) :
    ∃ responder, Terminal.step config hearing.responder event = some responder ∧
      next = hearing.hear event responder ∧ ∀ i now, event ≠ .pumpTake i now := by
  have mapped (still : ∀ i now, event ≠ .pumpTake i now)
      (same : hearing.step config (.comes event) =
        (Terminal.step config hearing.responder event).map (hearing.hear event)) :
      ∃ responder, Terminal.step config hearing.responder event = some responder ∧
        next = hearing.hear event responder ∧ ∀ i now, event ≠ .pumpTake i now := by
    obtain ⟨responder, moved, rfl⟩ := Option.map_eq_some_iff.mp (same.symm.trans stepped)
    exact ⟨responder, moved, rfl, still⟩
  cases event with
  | pumpTake i now => contradiction
  | _ => exact mapped nofun rfl

private theorem numbered_step {config : Config E} {hearing next : Hearing E} {turn : Turn}
    (numbered : hearing.Numbered) (stepped : hearing.step config turn = some next) :
    next.Numbered := by
  cases turn with
  | comes event =>
    obtain ⟨responder, moved, rfl, still⟩ := comes_of_step stepped
    have ordered := Responder.ordered_step numbered.ordered moved
    cases event with
    | terminalIn target origin timestamp plaintext locked =>
      cases moved
      exact numbered.terminalIn target origin timestamp plaintext locked ordered
    | _ =>
      exact numbered.keeps ordered
        (Responder.keeps_of_step numbered.ordered moved nofun still)
  | call now =>
    simp only [step] at stepped
    split at stepped
    · cases stepped
      exact ⟨numbered.ordered, numbered.past, numbered.apart, numbered.heard, numbered.stamped⟩
    · contradiction
  | visit locked =>
    simp only [step] at stepped
    split at stepped
    · rename_i i rest idle ahead
      cases stepped
      exact numbered.visit idle i rest locked
    · contradiction

/-- With every slot taken, one slot's origin was heard longest ago. -/
theorem Numbered.exists_leastRecent {hearing : Hearing E} (numbered : hearing.Numbered)
    (full : ∀ i, (hearing.responder.slots i).used = true) : ∃ i, hearing.LeastRecent i := by
  obtain ⟨i, least⟩ :=
    Finite.exists_min fun i => hearing.latest (hearing.responder.slots i).origin
  refine ⟨i, fun j other => lt_of_le_of_ne (least j) fun same => other ?_⟩
  have origins := numbered.apart _ _ same (numbered.heard i (full i))
  exact numbered.ordered.apart j i (full j) (full i) origins.symm

private theorem leastRecent_unique {hearing : Hearing E} {i j : Fin 3}
    (first : hearing.LeastRecent i)
    (second : hearing.LeastRecent j) : i = j := by
  refine Classical.byContradiction fun other => ?_
  exact Nat.lt_asymm (first j (Ne.symm other)) (second i other)

/-- The stamps tell what came last to the slots. -/
theorem Numbered.sooner_iff {hearing : Hearing E} (numbered : hearing.Numbered) {i j : Fin 3}
    (first : (hearing.responder.slots i).used = true)
    (second : (hearing.responder.slots j).used = true) :
    hearing.Sooner i j ↔
      (hearing.responder.slots i).lastUsed < (hearing.responder.slots j).lastUsed ∨
        (hearing.responder.slots i).lastUsed = (hearing.responder.slots j).lastUsed ∧ i < j := by
  rw [numbered.stamped i first, numbered.stamped j second]
  exact Stamping.sooner_iff i j _ _

/-- In every run, when a message of a new origin comes with every slot taken: the slot it
takes is the one whose origin was heard longest ago exactly if what came last for that
slot, the giving out or a call of `pump`, came sooner than for the others. -/
theorem evicts_least_recent_iff (config : Config E) (editor : E) {hearing next : Hearing E}
    {turns : List Turn} (ran : run (step config) (start editor) turns = some hearing)
    (full : ∀ i, (hearing.responder.slots i).used = true)
    (new : hearing.responder.find origin = none) (bytes : plaintext ≠ [])
    (stepped : hearing.step config (.comes (.terminalIn target origin timestamp plaintext true)) =
      some next) :
    (∀ i, Evicted hearing.responder next.responder i ↔ hearing.LeastRecent i) ↔
      ∀ i, hearing.LeastRecent i → ∀ j, j ≠ i → hearing.Sooner i j := by
  have numbered := run_invariant numbered_step (numbered_start editor) ran
  obtain ⟨oldest, least⟩ := numbered.exists_leastRecent full
  have foremost (i : Fin 3) :
      (∀ j, j ≠ i → hearing.Sooner i j) ↔ hearing.responder.Foremost i :=
    forall₂_congr fun j _ => numbered.sooner_iff (full i) (full j)
  simp only [foremost]
  cases stepped
  simp only [hear, Responder.evicted_iff_victim full new bytes]
  constructor
  · intro victim i here
    rw [(victim i).mpr here]
    exact Responder.foremost_victim full
  · intro foremost i
    have same : hearing.responder.victim = oldest :=
      Responder.foremost_unique (Responder.foremost_victim full) (foremost oldest least)
    rw [same]
    constructor
    · rintro rfl
      exact least
    · exact fun here => leastRecent_unique here least

def typist (sourceId : UInt32) (timestamp : UInt64) : Turn :=
  .comes (.terminalIn .tcp ⟨sourceId, 1⟩ timestamp ['a'] true)

/-- The call comes to its next slot, and does its pass. -/
def passOver : List Turn := [.visit true, .comes (.pumpBegin true), .comes (.pumpPoll true)]

/-- Three terminals type, and a call of `pump` passes over their slots. -/
def threeTypists : List Turn :=
  [typist 1 1, typist 2 2, typist 3 3, .call 10] ++ passOver ++ passOver ++ passOver

/-- The third types on, a fourth takes the first's slot, and a call misses the second's. -/
def fourTypists : List Turn :=
  threeTypists ++ [typist 3 20, typist 4 30, .call 40] ++ passOver ++ [.visit false] ++ passOver ++
    [typist 4 50]

instance (hearing : Hearing E) (i : Fin 3) : Decidable (hearing.LeastRecent i) :=
  inferInstanceAs (Decidable (∀ j, j ≠ i → _))

instance (hearing : Hearing E) (i j : Fin 3) : Decidable (hearing.Sooner i j) :=
  inferInstanceAs (Decidable (Stamping.Sooner i j _ _))

theorem evicts_least_recent_of_typists : ∃ hearing next,
    run (step Responder.plain) (start []) fourTypists = some hearing ∧
    hearing.step Responder.plain (typist 5 60) = some next ∧
    hearing.responder.originsEvicted = 1 ∧ Evicted hearing.responder next.responder 1 ∧
    ∀ i, Evicted hearing.responder next.responder i ↔ hearing.LeastRecent i := by
  have ran : run (step Responder.plain) (start []) fourTypists = some _ := rfl
  refine ⟨_, _, ran, rfl, rfl, ⟨rfl, by decide +kernel⟩, ?_⟩
  refine (evicts_least_recent_iff Responder.plain [] ran (by decide +kernel) rfl
    (List.cons_ne_nil _ _) rfl).mpr ?_
  decide +kernel

/-- The first of three types once more, and a fourth takes its slot. -/
theorem evicts_most_recent : ¬ ∀ (turns : List Turn) (hearing next : Hearing Text),
    run (step Responder.plain) (start []) turns = some hearing →
    (∀ i, (hearing.responder.slots i).used = true) →
    hearing.responder.find ⟨4, 1⟩ = none →
    hearing.step Responder.plain (typist 4 40) = some next →
      ∀ i, Evicted hearing.responder next.responder i ↔ hearing.LeastRecent i := by
  intro every
  obtain ⟨hearing, next, ran, full, new, stepped, taken, later⟩ : ∃ hearing next,
      run (step Responder.plain) (start []) (threeTypists ++ [typist 1 11]) = some hearing ∧
      (∀ i, (hearing.responder.slots i).used = true) ∧
      hearing.responder.find ⟨4, 1⟩ = none ∧
      hearing.step Responder.plain (typist 4 40) = some next ∧
      Evicted hearing.responder next.responder 0 ∧ ¬ hearing.LeastRecent 0 :=
    ⟨_, _, rfl, by decide, rfl, rfl, ⟨rfl, by decide⟩, by decide⟩
  exact later ((every _ hearing next ran full new stepped 0).mp taken)

end Hearing

end BallyOS.Terminal
