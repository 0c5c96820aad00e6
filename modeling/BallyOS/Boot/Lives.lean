import BallyOS.Boot.Identity
import BallyOS.Sequence.KeyReuse

/-! The robot over all its boots. Power may go at any point, with a write to NVS
half done; the next boot asks for an identity again, and its senders count from
one again. Between them the messages under key E keep their identities apart. -/
namespace BallyOS.Boot
open Btp Command Library Sequence

/-- The largest boot id. -/
def kLastBootId : Nat := 2 ^ 32 - 1

/-- `before` is what left in earlier boots; it and the count of calls are ghosts. -/
structure Life (Cache Counter : Type) where
  nvs : Durable UInt32
  names : Names
  senders : Option (Senders Cache Counter)
  attempts : Nat
  before : List Departure

inductive Event
  | configure (answers : Answers)
  | bindTransport (keysLoaded : Bool)
  | send (event : Sequence.Event)
  | powerCut (survives : Bool)

section

variable {Cache Counter : Type}

/-- Everything that ever left. -/
def Life.left (life : Life Cache Counter) : List Departure :=
  life.before ++ (life.senders.map Senders.left).getD []

/-- Out of the box, whatever is in NVS. -/
def Life.new (lastBoot : Option UInt32) : Life Cache Counter where
  nvs := .of lastBoot
  names := .unset
  senders := none
  attempts := 0
  before := []

variable (api : Api Cache) (sequencer : Sequencer Counter) (maxPayload : Link → Nat)
  (dongleMac : Option Mac)

/-- `app_main` calls `init` until it succeeds, so the identity may be asked for many
times in one boot, and the transport is bound once, with an identity. -/
def step : Machine (Life Cache Counter) Event := fun life event =>
  match event with
  | .configure answers =>
    let (_, names, nvs) := configureProtocolIdentity dongleMac life.names life.nvs answers
    some { life with names, nvs, attempts := life.attempts + 1 }
  | .bindTransport keysLoaded =>
    if life.names.sourceId = 0 ∨ life.names.bootId = 0 ∨ life.senders.isSome then none
    else some { life with
      senders := some (.start api sequencer ⟨life.names.sourceId, life.names.bootId⟩ keysLoaded) }
  | .send event =>
    life.senders.bind fun senders => (Sequence.step api sequencer maxPayload senders event).map
      fun next => { life with senders := some next }
  | .powerCut survives =>
    some ⟨life.nvs.cut survives, .unset, none, life.attempts, life.left⟩

/-- NVS is never erased, and within a boot each number that is used again is used by the
endpoint it came from. -/
def Orderly (life : Life Cache Counter) : Event → Prop
  | .configure answers => answers.Keeps
  | .send event => ∀ senders, life.senders = some senders →
      OwnNumbers api sequencer maxPayload senders event
  | _ => True

end

/-! ### One boot -/

section

variable {Cache Counter : Type} {api : Api Cache} {sequencer : Sequencer Counter}
  {maxPayload : Link → Nat}

private theorem mem_depart_names {senders : Senders Cache Counter}
    (member : departure ∈ senders.depart sealedBy allocator number message made) :
    departure.triple.bootId = senders.identity.bootId := by
  unfold Senders.depart at member
  split at member
  · cases member
  · cases List.mem_singleton.mp member
    rfl

/-- Every message has the identity of the boot. -/
theorem mem_departures_names {senders : Senders Cache Counter} {event : Sequence.Event}
    (member : departure ∈ senders.departures api sequencer maxPayload event) :
    departure.triple.bootId = senders.identity.bootId := by
  have results : ∀ reply cleartext, departure ∈ senders.resultDepartures api reply cleartext →
      departure.triple.bootId = senders.identity.bootId := by
    intro reply cleartext member
    unfold Senders.resultDepartures at member
    split at member
    · cases member
    · exact mem_depart_names member
  unfold Senders.departures at member
  split at member
  · obtain ⟨_, _, departed⟩ := List.mem_flatMap.mp member
    exact mem_depart_names departed
  · split at member
    · exact results _ _ member
    · cases member
  · split at member
    · exact results _ _ member
    · cases member
  · unfold Senders.logicalDepartures at member
    split at member
    · cases member
    split at member
    · cases member
    obtain ⟨_, _, departed⟩ := List.mem_flatMap.mp member
    exact mem_depart_names departed

private theorem identity_sendLogical (senders : Senders Cache Counter)
    (sends : Option (Link × Option SealFn × List Message)) :
    (senders.sendLogical sequencer sends).identity = senders.identity := by
  unfold Senders.sendLogical
  split
  · rfl
  split <;> rfl

private theorem identity_step {senders next : Senders Cache Counter} {event : Sequence.Event}
    (stepped : Sequence.step api sequencer maxPayload senders event = some next) :
    next.identity = senders.identity := by
  obtain ⟨advanced, moved, rfl⟩ := Option.map_eq_some_iff.mp stepped
  cases event with
  | publish | publishSystemMonitor | flush =>
    cases moved
    rfl
  | command event =>
    obtain ⟨tasks, -, rfl⟩ := Option.map_eq_some_iff.mp moved
    rfl
  | startSession link begun | disconnect link =>
    simp only [Senders.advance] at moved
    split at moved
    · cases moved
    · cases moved
      rfl
  | pump | status | answer =>
    cases moved
    exact identity_sendLogical senders _

/-- What holds of the senders of one boot. -/
structure Sending (api : Api Cache) (sequencer : Sequencer Counter) (names : Names)
    (senders : Senders Cache Counter) : Prop where
  identity : senders.identity.bootId = names.bootId
  named : names.sourceId ≠ 0 ∧ names.bootId ≠ 0
  sound : Sound api sequencer senders
  own : ∀ departure ∈ senders.left, departure.triple.bootId = names.bootId

private theorem sending_step (ascending : sequencer.Ascending)
    (lawful : api.dedup.Lawful kCacheCapacity)
    (within : api.EncodesWithin) {names : Names} {senders next : Senders Cache Counter}
    {event : Sequence.Event} (sending : Sending api sequencer names senders)
    (own : OwnNumbers api sequencer maxPayload senders event)
    (stepped : Sequence.step api sequencer maxPayload senders event = some next) :
    Sending api sequencer names next := by
  have identity := identity_step stepped
  refine ⟨?_, sending.named, sound_step ascending lawful within sending.sound own stepped, ?_⟩
  · rw [identity]
    exact sending.identity
  · obtain ⟨advanced, -, rfl⟩ := Option.map_eq_some_iff.mp stepped
    intro departure member
    obtain old | new := List.mem_append.mp member
    · exact sending.own departure old
    · exact (mem_departures_names new).trans sending.identity

/-! ### Every boot -/

/-- Where the robot is among the turns of the boot ids. NVS holds the id of turn `stored`
for good, and shows that of `written`; no earlier boot had that of `current` or a later one. -/
structure Settled (base stored written current : Nat) (life : Life Cache Counter) : Prop where
  kept : (life.nvs.stored.getD 0).toNat = rolling kLastBootId stored
  shown : (life.nvs.written.getD 0).toNat = rolling kLastBootId written
  order : base ≤ stored ∧ stored ≤ written ∧ written ≤ base + life.attempts
  next : base < current ∧ current ≤ stored + 1
  named : life.names.sourceId ≠ 0 → life.names.bootId ≠ 0 →
    life.names.bootId.toNat = rolling kLastBootId current ∧ current ≤ stored
  past : ∀ departure ∈ life.before, ∃ turn, base < turn ∧ turn < current ∧
    departure.triple.bootId.toNat = rolling kLastBootId turn

/-- What holds of the robot over all its boots. -/
structure Kept (api : Api Cache) (sequencer : Sequencer Counter) (base : Nat)
    (life : Life Cache Counter) : Prop where
  settled : ∃ stored written current, Settled base stored written current life
  sending : ∀ senders, life.senders = some senders → Sending api sequencer life.names senders
  apart : life.attempts ≤ kLastBootId → ∀ one ∈ life.before, ∀ two ∈ life.before,
    Repeats one two → one.message = two.message

/-- Messages of this boot have another boot id than those of the earlier ones. -/
theorem apart_left {base : Nat} {life : Life Cache Counter} (kept : Kept api sequencer base life)
    (few : life.attempts ≤ kLastBootId) : ∀ one ∈ life.left, ∀ two ∈ life.left,
      Repeats one two → one.message = two.message := by
  obtain ⟨⟨stored, written, current, settled⟩, sending, apart⟩ := kept
  cases boot : life.senders with
  | none =>
    simp only [Life.left, boot, Option.map_none, Option.getD_none, List.append_nil]
    exact apart few
  | some senders =>
    simp only [Life.left, boot, Option.map_some, Option.getD_some]
    have now := sending senders boot
    have mixed : ∀ one ∈ life.before, ∀ two ∈ senders.left, one.triple ≠ two.triple := by
      intro one earlier two recent same
      obtain ⟨turn, begun, before, at_⟩ := settled.past one earlier
      obtain ⟨here, reached⟩ := settled.named now.named.1 now.named.2
      rw [same, now.own two recent, here] at at_
      have apart := turns_of_rolling_eq (Nat.zero_lt_of_lt begun) before at_.symm
      obtain ⟨-, ahead, behind⟩ := settled.order
      omega
    intro one first two second repeats
    obtain first | first := List.mem_append.mp first
    · obtain second | second := List.mem_append.mp second
      · exact apart few one first two second repeats
      · exact absurd repeats.2.2 (mixed one first two second)
    · obtain second | second := List.mem_append.mp second
      · exact absurd repeats.2.2.symm (mixed two second one first)
      · exact now.sound.apart one first two second repeats

private theorem kept_configure {base : Nat} {life : Life Cache Counter}
    (kept : Kept api sequencer base life) (dongleMac : Option Mac) {answers : Answers}
    (keeps : answers.Keeps) :
    Kept api sequencer base { life with
      names := (configureProtocolIdentity dongleMac life.names life.nvs answers).2.1
      nvs := (configureProtocolIdentity dongleMac life.names life.nvs answers).2.2
      attempts := life.attempts + 1 } := by
  obtain ⟨⟨stored, written, current, settled⟩, sending, apart⟩ := kept
  obtain ⟨below, ahead, behind⟩ := settled.order
  have later : life.attempts + 1 ≤ kLastBootId → life.attempts ≤ kLastBootId := Nat.le_of_succ_le
  have advanced := nextBootId_rolling settled.shown
  obtain same | ⟨unnamed, ⟨after, called, left⟩ | ⟨given, called, -, bootId⟩⟩ :=
    @configure_cases dongleMac life.names life.nvs answers keeps
  · rw [same]
    exact ⟨⟨stored, written, current, settled.kept, settled.shown,
      ⟨below, ahead, Nat.le_succ_of_le behind⟩, settled.next, settled.named, settled.past⟩,
      sending, fun few => apart (later few)⟩
  · have none (source : life.names.sourceId ≠ 0) (boot : life.names.bootId ≠ 0) : False :=
      unnamed.elim source boot
    rw [called]
    refine ⟨?_, sending, fun few => apart (later few)⟩
    obtain rfl | rfl := left
    · exact ⟨stored, written + 1, current, settled.kept, advanced,
        ⟨below, Nat.le_succ_of_le ahead, Nat.succ_le_succ behind⟩, settled.next,
        fun source boot => (none source boot).elim, settled.past⟩
    · exact ⟨written + 1, written + 1, current, advanced, advanced,
        ⟨by omega, Nat.le_refl _, Nat.succ_le_succ behind⟩,
        ⟨settled.next.1, by have := settled.next.2; omega⟩,
        fun source boot => (none source boot).elim, settled.past⟩
  · rw [called]
    refine ⟨⟨written + 1, written + 1, written + 1, advanced, advanced,
      ⟨by omega, Nat.le_refl _, Nat.succ_le_succ behind⟩, ⟨by omega, Nat.le_succ _⟩,
      fun _ _ => ⟨?_, Nat.le_refl _⟩, fun departure member => ?_⟩,
      fun senders boot => ?_, fun few => apart (later few)⟩
    · dsimp only
      rw [bootId]
      exact advanced
    · obtain ⟨turn, begun, before, at_⟩ := settled.past departure member
      have := settled.next.2
      exact ⟨turn, begun, by omega, at_⟩
    · obtain ⟨source, named⟩ := (sending senders boot).named
      exact (unnamed.elim source named).elim

private theorem kept_powerCut {base : Nat} {life : Life Cache Counter}
    (kept : Kept api sequencer base life) (survives : Bool) :
    Kept api sequencer base
      (⟨life.nvs.cut survives, .unset, none, life.attempts, life.left⟩ : Life Cache Counter) := by
  have apart := apart_left kept
  obtain ⟨⟨stored, written, current, settled⟩, sending, -⟩ := kept
  obtain ⟨below, ahead, behind⟩ := settled.order
  obtain ⟨turn, at_, lower, upper⟩ : ∃ turn,
      ((life.nvs.cut survives).stored.getD 0).toNat = rolling kLastBootId turn ∧
        stored ≤ turn ∧ turn ≤ written := by
    cases survives with
    | false => exact ⟨stored, settled.kept, Nat.le_refl _, ahead⟩
    | true => exact ⟨written, settled.shown, ahead, Nat.le_refl _⟩
  have reached := settled.next.2
  refine ⟨⟨turn, turn, turn + 1, at_, at_, ⟨Nat.le_trans below lower, Nat.le_refl _,
    Nat.le_trans upper behind⟩, ⟨by omega, Nat.le_refl _⟩, fun source _ => (source rfl).elim,
    fun departure member => ?_⟩, fun senders boot => (by cases boot), apart⟩
  obtain old | recent := List.mem_append.mp member
  · obtain ⟨earlier, begun, before, taken⟩ := settled.past departure old
    exact ⟨earlier, begun, by omega, taken⟩
  · cases boot : life.senders with
    | none => simp [boot] at recent
    | some senders =>
      simp only [boot, Option.map_some, Option.getD_some] at recent
      have now := sending senders boot
      obtain ⟨here, held⟩ := settled.named now.named.1 now.named.2
      exact ⟨current, settled.next.1, by omega, by rw [now.own departure recent, here]⟩

/-- Where the ids are does not depend on who sends. -/
theorem settled_senders {base : Nat} {life : Life Cache Counter}
    (settled : ∃ stored written current, Settled base stored written current life)
    (senders : Option (Senders Cache Counter)) :
    ∃ stored written current,
      Settled base stored written current { life with senders := senders } := by
  obtain ⟨stored, written, current, kept, shown, order, next, named, past⟩ := settled
  exact ⟨stored, written, current, kept, shown, order, next, named, past⟩

private theorem kept_step (ascending : sequencer.Ascending)
    (lawful : api.dedup.Lawful kCacheCapacity)
    (within : api.EncodesWithin) {base : Nat} {dongleMac : Option Mac}
    {life next : Life Cache Counter} {event : Event} (kept : Kept api sequencer base life)
    (orderly : Orderly api sequencer maxPayload life event)
    (stepped : step api sequencer maxPayload dongleMac life event = some next) :
    Kept api sequencer base next := by
  cases event with
  | configure answers =>
    cases stepped
    exact kept_configure kept dongleMac orderly
  | bindTransport keysLoaded =>
    simp only [step] at stepped
    split at stepped
    · cases stepped
    · rename_i ready
      cases stepped
      simp only [not_or] at ready
      refine ⟨settled_senders kept.settled _, fun senders boot => ?_, kept.apart⟩
      cases boot
      exact ⟨rfl, ⟨ready.1, ready.2.1⟩, sound_start lawful _ _, nofun⟩
  | send event =>
    obtain ⟨senders, boot, moved⟩ := Option.bind_eq_some_iff.mp stepped
    obtain ⟨after, sent, rfl⟩ := Option.map_eq_some_iff.mp moved
    refine ⟨settled_senders kept.settled _, fun _ same => ?_, kept.apart⟩
    cases same
    exact sending_step ascending lawful within (kept.sending senders boot) (orderly senders boot)
      sent
  | powerCut survives =>
    cases stepped
    exact kept_powerCut kept survives

end

private def granted : Answers :=
  ⟨.ok, .ok, false, .ok, some fun _ => 7, .ok, none, .ok, false, .ok, false⟩

end BallyOS.Boot
