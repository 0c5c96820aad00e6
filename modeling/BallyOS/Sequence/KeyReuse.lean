import BallyOS.Library.Numbering
import BallyOS.Sequence.Senders

/-! No number is used for two messages under key E, in every run in which each
number that is used again is used by the endpoint it came from. Two sessions of
a direct link, or a session and the shared endpoint, break this: their counters
start alike, under one identity and one key. -/
namespace BallyOS.Sequence
open Btp Command Library Telemetry

variable {Cache Counter : Type} {api : Api Cache} {sequencer : Sequencer Counter}
  {maxPayload : Link → Nat}

/-- The numbers a counter has behind it. A session's counter is gone when the
session is. -/
def Spent (sequencer : Sequencer Counter) (endpoints : Endpoints Counter) :
    Allocator → UInt32 → Prop
  | .protocol, number => number.toNat < sequencer.floor endpoints.protocol
  | .session link session, number => session < endpoints.started link ∧
      ∀ node, endpoints.node link = some node → node.session = session →
        number.toNat < sequencer.floor node.endpoint

/-- A session that is on was started. -/
def Live (endpoints : Endpoints Counter) : Prop :=
  ∀ link node, endpoints.node link = some node → node.session < endpoints.started link

/-- The numbers that were sent under or still may be, each with the message it
was reserved for. -/
inductive Holds (senders : Senders Cache Counter) : Allocator → UInt32 → Message → Prop
  | waiting : sample ∈ senders.telemetry.waiting →
      Holds senders .protocol sample.sequence sample.message
  | command : Carries senders.tasks number message → Holds senders .protocol number message
  | left : departure ∈ senders.left →
      Holds senders departure.allocator departure.triple.sequence departure.made

def Repeats (one two : Departure) : Prop :=
  one.sealedBy = some .radioSealE ∧ two.sealedBy = some .radioSealE ∧ one.triple = two.triple

structure Sound (api : Api Cache) (sequencer : Sequencer Counter)
    (senders : Senders Cache Counter) : Prop where
  agrees : Agrees api senders.tasks.world
  live : Live senders.endpoints
  numbered : Numbered (Holds senders) (Spent sequencer senders.endpoints)
  apart : ∀ one ∈ senders.left, ∀ two ∈ senders.left, Repeats one two → one.message = two.message

private theorem live_put {endpoints : Endpoints Counter} (live : Live endpoints) (link : Link)
    (counter : Counter) : Live (endpoints.put link counter) := by
  unfold Endpoints.put
  split
  · exact live
  · refine (forall_update fun other (now : Option (Node Counter)) => ∀ node, now = some node →
      node.session < endpoints.started other).mpr ⟨?_, fun other _ => live other⟩
    intro node same
    obtain ⟨old, held, rfl⟩ := Option.map_eq_some_iff.mp same
    exact live link old held

/-- Numbers handed out by a link's endpoint were not spent and are now. -/
theorem issued_put {endpoints : Endpoints Counter} (live : Live endpoints)
    (here : endpoints.of link = some (allocator, counter))
    (handed : sequencer.HandedOut counter after numbered) :
    (∀ other number, Spent sequencer endpoints other number →
      Spent sequencer (endpoints.put link after) other number) ∧
    Issued (Spent sequencer endpoints) (Spent sequencer (endpoints.put link after)) allocator
      (numbered : List (UInt32 × Message)) := by
  unfold Endpoints.of at here
  unfold Endpoints.put
  split at here
  · rename_i radio
    cases here
    rw [if_pos radio]
    refine ⟨?_, ?_, ?_, handed.single⟩
    · rintro (_ | ⟨other, session⟩) number spent
      · have := handed.stays
        simp only [Spent] at spent ⊢
        omega
      · exact spent
    · intro number item member spent
      have := handed.above number item member
      simp only [Spent] at spent
      omega
    · exact handed.below
  · rename_i direct
    obtain ⟨node, held, same⟩ := Option.map_eq_some_iff.mp here
    cases same
    rw [if_neg direct]
    refine ⟨?_, ?_, ?_, handed.single⟩
    · rintro (_ | ⟨other, session⟩) number spent
      · exact spent
      · refine ⟨spent.1, ?_⟩
        by_cases moved : other = link
        · subst moved
          intro later now same
          dsimp only at now
          rw [Function.update_self, held] at now
          cases now
          have := spent.2 node held same
          have := handed.stays
          dsimp only
          omega
        · intro later now same
          dsimp only at now
          rw [Function.update_of_ne moved] at now
          exact spent.2 later now same
    · intro number item member spent
      have := spent.2 node held rfl
      have := handed.above number item member
      omega
    · intro number item member
      refine ⟨live link node held, ?_⟩
      intro later now _
      dsimp only at now
      rw [Function.update_self, held] at now
      cases now
      exact handed.below number item member

private theorem mem_depart {senders : Senders Cache Counter}
    (member : departure ∈ senders.depart sealedBy allocator number message made) :
    departure.allocator = allocator ∧ departure.triple.sequence = number ∧
      departure.message = message ∧ departure.made = made := by
  unfold Senders.depart at member
  split at member
  · cases member
  · cases List.mem_singleton.mp member
    exact ⟨rfl, rfl, rfl, rfl⟩

private theorem mem_telemetryDepartures {senders : Senders Cache Counter}
    (member : departure ∈ senders.telemetryDepartures targets taken) :
    ∃ sample ∈ taken, departure.allocator = .protocol ∧
      departure.triple.sequence = sample.sequence ∧ departure.message = sample.message ∧
        departure.made = sample.message := by
  obtain ⟨⟨link, sample⟩, delivered, departed⟩ := List.mem_flatMap.mp member
  obtain ⟨_, kept, sent⟩ := List.mem_flatMap.mp delivered
  obtain ⟨target, _, same⟩ := List.mem_map.mp sent
  cases same
  exact ⟨sample, kept, mem_depart departed⟩

private theorem mem_resultDepartures {senders : Senders Cache Counter}
    (member : departure ∈ senders.resultDepartures api reply cleartext) :
    departure.allocator = .protocol ∧ departure.triple.sequence = reply.view.sequence ∧
      departure.made = reply.made := by
  unfold Senders.resultDepartures at member
  split at member
  · cases member
  rename_i outgoing sent
  obtain ⟨allocator, number, _, made⟩ := mem_depart member
  refine ⟨allocator, ?_, made⟩
  rw [number]
  unfold sendResultVia at sent
  split at sent
  · cases sent
  split at sent <;> cases sent
  rfl

private theorem resultDepartures_sole {senders : Senders Cache Counter}
    (first : one ∈ senders.resultDepartures api reply cleartext)
    (second : two ∈ senders.resultDepartures api reply cleartext) : one = two := by
  unfold Senders.resultDepartures at first second
  cases sent : sendResultVia api senders.tasks.world.processor reply.view cleartext with
  | none => simp [sent] at first
  | some outgoing =>
    simp only [sent, Senders.depart] at first second
    split at first
    · cases first
    · rename_i sealing
      rw [if_neg sealing] at second
      exact (List.mem_singleton.mp first).trans (List.mem_singleton.mp second).symm

/-- What one event sends: messages as they were made, from one counter, or a
single reply. -/
def Uniform (departures : List Departure) : Prop :=
  (∃ allocator, ∀ departure ∈ departures,
    departure.allocator = allocator ∧ departure.message = departure.made) ∨
  ∀ one ∈ departures, ∀ two ∈ departures, one = two

/-- Telling new departures from old ones is all that is left to do for a step. -/
theorem sound_of_numbered {senders next : Senders Cache Counter}
    (sound : Sound api sequencer senders)
    (own : ∀ departure ∈ departures, ∀ earlier ∈ senders.left, Repeats departure earlier →
      departure.allocator = earlier.allocator ∧
        departure.message = departure.made ∧ earlier.message = earlier.made)
    (uniform : Uniform departures) (agrees : Agrees api next.tasks.world)
    (live : Live next.endpoints)
    (numbered : Numbered (Holds { next with left := senders.left ++ departures })
      (Spent sequencer next.endpoints)) :
    Sound api sequencer { next with left := senders.left ++ departures } := by
  have equal : ∀ one ∈ senders.left ++ departures, ∀ two ∈ senders.left ++ departures,
      one.allocator = two.allocator → one.triple = two.triple → one.made = two.made := by
    intro one first two second allocator triple
    have here : Holds { next with left := senders.left ++ departures } _ _ one.made := .left first
    have there : Holds { next with left := senders.left ++ departures } _ _ two.made :=
      .left second
    rw [allocator, triple] at here
    exact numbered.single _ _ _ _ here there
  have later : ∀ one ∈ departures, ∀ two ∈ senders.left, Repeats one two →
      one.message = two.message := by
    intro one new two old repeats
    obtain ⟨allocator, made, madeThen⟩ := own one new two old repeats
    rw [made, madeThen]
    exact equal one (List.mem_append_right _ new) two (List.mem_append_left _ old) allocator
      repeats.2.2
  refine ⟨agrees, live, numbered, ?_⟩
  intro one first two second repeats
  rcases List.mem_append.mp first with old | new
  · rcases List.mem_append.mp second with older | newer
    · exact sound.apart one old two older repeats
    · exact (later two newer one old ⟨repeats.2.1, repeats.1, repeats.2.2.symm⟩).symm
  · rcases List.mem_append.mp second with older | newer
    · exact later one new two older repeats
    · rcases uniform with ⟨allocator, same⟩ | sole
      · obtain ⟨from_one, made_one⟩ := same one new
        obtain ⟨from_two, made_two⟩ := same two newer
        rw [made_one, made_two]
        exact equal one first two second (from_one.trans from_two.symm) repeats.2.2
      · exact congrArg Departure.message (sole one new two newer)

private theorem uniform_departures (senders : Senders Cache Counter) (event : Event) :
    Uniform (senders.departures api sequencer maxPayload event) := by
  unfold Senders.departures
  split
  · refine .inl ⟨.protocol, fun departure member => ?_⟩
    obtain ⟨_, _, allocator, _, message, made⟩ := mem_telemetryDepartures member
    exact ⟨allocator, message.trans made.symm⟩
  · split
    · exact .inr fun _ first _ second => resultDepartures_sole first second
    · exact .inr (by simp)
  · split
    · exact .inr fun _ first _ second => resultDepartures_sole first second
    · exact .inr (by simp)
  · unfold Senders.logicalDepartures
    split
    · exact .inr (by simp)
    split
    · exact .inr (by simp)
    · rename_i allocator _ _
      refine .inl ⟨allocator, fun departure member => ?_⟩
      obtain ⟨_, _, departed⟩ := List.mem_flatMap.mp member
      obtain ⟨allocator, _, message, made⟩ := mem_depart departed
      exact ⟨allocator, message.trans made.symm⟩

/-- The number that `protocol` reserved was not spent and is now. -/
theorem issued_reserve {senders : Senders Cache Counter} (ascending : sequencer.Ascending)
    (live : Live senders.endpoints) (reserves : Bool) (message : Message) :
    Live (senders.reserve sequencer reserves) ∧
    (∀ other number, Spent sequencer senders.endpoints other number →
      Spent sequencer (senders.reserve sequencer reserves) other number) ∧
    Issued (Spent sequencer senders.endpoints)
      (Spent sequencer (senders.reserve sequencer reserves)) .protocol
      (if reserves then (sequencer.upcoming senders.endpoints.protocol).toList.map (·, message)
        else []) := by
  cases reserves with
  | false => exact ⟨live, fun _ _ => id, issued_nil _ _ _⟩
  | true =>
    have here : senders.endpoints.of .espNow = some (.protocol, senders.endpoints.protocol) := rfl
    exact ⟨live_put live .espNow _,
      issued_put live here (handedOut_advanced ascending senders.endpoints.protocol message)⟩

/-- A publish call that queued a sample put the next number of `protocol` to
use for it. -/
private theorem numbered_publish {senders : Senders Cache Counter} {telemetry : Publisher}
    (ascending : sequencer.Ascending) (sound : Sound api sequencer senders)
    (waits : (result = .queued ∧ ∃ sample, sequencer.upcoming senders.endpoints.protocol =
        some sample.sequence ∧ ∀ other ∈ telemetry.waiting,
          other ∈ senders.telemetry.waiting ∨ other = sample) ∨
      (result ≠ .queued ∧ telemetry = senders.telemetry)) :
    Live (senders.reserve sequencer (result = PublishResult.queued)) ∧
    Numbered (Holds { senders with
        telemetry
        endpoints := senders.reserve sequencer (result = PublishResult.queued)
        left := senders.left ++ [] })
      (Spent sequencer (senders.reserve sequencer (result = PublishResult.queued))) := by
  rcases waits with ⟨rfl, sample, upcoming, waits⟩ | ⟨other, rfl⟩
  · obtain ⟨live, stays, issued⟩ := issued_reserve ascending sound.live true sample.message
    refine ⟨live, numbered_issue sound.numbered stays issued ?_⟩
    rintro _ _ _ (member | carried | sent)
    · rcases waits _ member with old | rfl
      · exact .inl (.waiting old)
      · exact .inr ⟨rfl, by simp [upcoming]⟩
    · exact .inl (.command carried)
    · exact .inl (.left (by simpa using sent))
  · obtain ⟨live, stays, issued⟩ := issued_reserve ascending sound.live false ⟨.invalid, 0, 0, []⟩
    simp only [decide_eq_false other]
    refine ⟨live, numbered_issue sound.numbered stays issued ?_⟩
    rintro _ _ _ (member | carried | sent)
    · exact .inl (.waiting member)
    · exact .inl (.command carried)
    · exact .inl (.left (by simpa using sent))

/-- A flush sends what was waiting, under the numbers it waited with. -/
private theorem numbered_flush {senders : Senders Cache Counter}
    (sound : Sound api sequencer senders) (maxSamples : Nat) (targets : List Target) :
    Numbered (Holds { senders with
        telemetry := (flush senders.telemetry maxSamples targets).2
        left := senders.left ++ senders.telemetryDepartures targets
          (flush senders.telemetry maxSamples targets).1 })
      (Spent sequencer senders.endpoints) := by
  have waited := flush_waiting senders.telemetry maxSamples targets
  refine numbered_issue sound.numbered (fun _ _ => id) (issued_nil _ _ .protocol) ?_
  rintro _ _ _ (member | carried | sent)
  · exact .inl (.waiting (waited ▸ List.mem_append_right _ member))
  · exact .inl (.command carried)
  · rcases List.mem_append.mp sent with old | new
    · exact .inl (.left old)
    · obtain ⟨sample, taken, allocator, number, _, made⟩ := mem_telemetryDepartures new
      rw [allocator, number, made]
      exact .inl (.waiting (waited ▸ List.mem_append_left _ taken))

/-- The command path puts at most the next number of `protocol` to use, and
sends replies under the numbers they carry. -/
private theorem numbered_command {senders : Senders Cache Counter} {tasks : Tasks Cache SealFn}
    {event : TaskEvent} (ascending : sequencer.Ascending)
    (lawful : api.dedup.Lawful kCacheCapacity) (within : api.EncodesWithin)
    (sound : Sound api sequencer senders)
    (stepped : taskStep api senders.tasks
      (event.withReserved (sequencer.upcoming senders.endpoints.protocol)) = some tasks) :
    Live (senders.reserve sequencer (event.reserves api senders.tasks)) ∧
    Numbered (Holds { senders with
        tasks
        endpoints := senders.reserve sequencer (event.reserves api senders.tasks)
        left := senders.left ++ senders.departures api sequencer maxPayload (.command event) })
      (Spent sequencer (senders.reserve sequencer (event.reserves api senders.tasks))) := by
  obtain ⟨message, carries⟩ := carries_taskStep lawful within sound.agrees stepped
  obtain ⟨live, stays, issued⟩ := issued_reserve ascending sound.live
    (event.reserves api senders.tasks) message
  refine ⟨live, numbered_issue sound.numbered stays issued ?_⟩
  rintro _ _ _ (member | carried | sent)
  · exact .inl (.waiting member)
  · rcases carries _ _ carried with old | ⟨reserves, upcoming, rfl⟩
    · exact .inl (.command old)
    · exact .inr ⟨rfl, by simp [reserves, upcoming]⟩
  · rcases List.mem_append.mp sent with old | new
    · exact .inl (.left old)
    · left
      cases event with
      | reply link =>
        simp only [Senders.departures] at new
        split at new
        · rename_i reply waiting
          obtain ⟨allocator, number, made⟩ := mem_resultDepartures new
          rw [allocator, number, made]
          exact .command (.received waiting)
        · cases new
      | replyShell cleartext =>
        simp only [Senders.departures] at new
        split at new
        · rename_i reply waiting
          obtain ⟨allocator, number, made⟩ := mem_resultDepartures new
          rw [allocator, number, made]
          exact .command (.shell waiting)
        · cases new
      | _ => cases new

/-- `send_logical` puts the next numbers of a link's endpoint to use. -/
private theorem numbered_logical {senders : Senders Cache Counter}
    (ascending : sequencer.Ascending) (sound : Sound api sequencer senders)
    (sends : Option (Link × Option SealFn × List Message)) :
    Live (senders.sendLogical sequencer sends).endpoints ∧
    Numbered (Holds { senders.sendLogical sequencer sends with
        left := senders.left ++ senders.logicalDepartures sequencer sends })
      (Spent sequencer (senders.sendLogical sequencer sends).endpoints) := by
  have idle : Numbered (Holds { senders with left := senders.left ++ [] })
      (Spent sequencer senders.endpoints) := by
    rw [List.append_nil]
    exact sound.numbered
  unfold Senders.sendLogical Senders.logicalDepartures
  cases sends with
  | none => exact ⟨sound.live, idle⟩
  | some sent =>
    obtain ⟨link, sealedBy, messages⟩ := sent
    dsimp only
    cases here : senders.endpoints.of link with
    | none => exact ⟨sound.live, idle⟩
    | some endpoint =>
      obtain ⟨allocator, counter⟩ := endpoint
      obtain ⟨stays, issued⟩ :=
        issued_put sound.live here (handedOut_numberAll ascending counter messages)
      refine ⟨live_put sound.live link _, numbered_issue sound.numbered stays issued ?_⟩
      rintro _ _ _ (member | carried | sent)
      · exact .inl (.waiting member)
      · exact .inl (.command carried)
      · rcases List.mem_append.mp sent with old | new
        · exact .inl (.left old)
        · obtain ⟨⟨number, message⟩, numbered, departed⟩ := List.mem_flatMap.mp new
          obtain ⟨from_here, same, _, made⟩ := mem_depart departed
          rw [from_here, same, made]
          exact .inr ⟨rfl, numbered⟩

/-- A session that starts counts anew, as a session of its own; one that ends
takes its counter with it. -/
private theorem numbered_session {senders : Senders Cache Counter}
    {node : Link → Option (Node Counter)} {started : Link → Nat}
    (sound : Sound api sequencer senders)
    (stays : ∀ link, senders.endpoints.started link ≤ started link)
    (nodes : ∀ link now, node link = some now → senders.endpoints.node link = some now ∨
      senders.endpoints.started link ≤ now.session ∧ now.session < started link) :
    Live ⟨senders.endpoints.protocol, node, started⟩ ∧
    Numbered (Holds { senders with
        endpoints := ⟨senders.endpoints.protocol, node, started⟩
        left := senders.left ++ [] })
      (Spent sequencer ⟨senders.endpoints.protocol, node, started⟩) := by
  refine ⟨?_, numbered_issue sound.numbered ?_ (issued_nil _ _ .protocol) ?_⟩
  · intro link now held
    rcases nodes link now held with old | ⟨_, begun⟩
    · exact Nat.lt_of_lt_of_le (sound.live link now old) (stays link)
    · exact begun
  · rintro (_ | ⟨link, session⟩) number spent
    · exact spent
    · refine ⟨Nat.lt_of_lt_of_le spent.1 (stays link), fun now held same => ?_⟩
      rcases nodes link now held with old | ⟨begun, _⟩
      · exact spent.2 now old same
      · have := spent.1
        omega
  · rintro _ _ _ (member | carried | sent)
    · exact .inl (.waiting member)
    · exact .inl (.command carried)
    · exact .inl (.left (by simpa using sent))

private theorem sound_logical {senders : Senders Cache Counter}
    (ascending : sequencer.Ascending) (sound : Sound api sequencer senders)
    (own : ∀ departure ∈ senders.departures api sequencer maxPayload event,
      ∀ earlier ∈ senders.left, Repeats departure earlier →
        departure.allocator = earlier.allocator ∧
          departure.message = departure.made ∧ earlier.message = earlier.made)
    (uniform : Uniform (senders.departures api sequencer maxPayload event))
    (sends : senders.departures api sequencer maxPayload event =
      senders.logicalDepartures sequencer (Senders.logicalSends maxPayload event)) :
    Sound api sequencer
      { senders.sendLogical sequencer (Senders.logicalSends maxPayload event) with
        left := senders.left ++ senders.departures api sequencer maxPayload event } := by
  obtain ⟨live, numbered⟩ := numbered_logical ascending sound
    (Senders.logicalSends maxPayload event)
  have same := senders.sendLogical_tasks sequencer (Senders.logicalSends maxPayload event)
  apply sound_of_numbered sound own uniform (same ▸ sound.agrees) live
  rw [sends]
  exact numbered

theorem sound_step (ascending : sequencer.Ascending) (lawful : api.dedup.Lawful kCacheCapacity)
    (within : api.EncodesWithin) {senders next : Senders Cache Counter}
    (sound : Sound api sequencer senders)
    (own : OwnNumbers api sequencer maxPayload senders event)
    (stepped : step api sequencer maxPayload senders event = some next) :
    Sound api sequencer next := by
  obtain ⟨advanced, moved, rfl⟩ := Option.map_eq_some_iff.mp stepped
  have apart := fun departure member earlier old (repeats : Repeats departure earlier) =>
    own departure member earlier old repeats.1 repeats.2.1 repeats.2.2
  have uniform : Uniform (senders.departures api sequencer maxPayload event) :=
    uniform_departures senders event
  have given : ∀ {available number}, senders.tryReserve sequencer available = some number →
      sequencer.upcoming senders.endpoints.protocol = some number := by
    intro available number reserved
    cases available
    · cases reserved
    · exact reserved
  cases event with
  | publish topicId payload timestampUs available =>
    cases called : enqueue senders.telemetry topicId payload timestampUs
      (senders.tryReserve sequencer available) with
    | mk result telemetry =>
      simp only [Senders.advance, called] at moved
      cases moved
      obtain ⟨live, numbered⟩ := numbered_publish ascending sound ((enqueue_waiting called).imp_left
        fun ⟨queued, sequence, reserved, after⟩ =>
          ⟨queued, _, given reserved, fun other member => by simpa [after] using member⟩)
      exact sound_of_numbered sound apart uniform sound.agrees live numbered
  | publishSystemMonitor text timestampUs available =>
    cases called : publishSystemMonitor senders.telemetry text timestampUs
      (senders.tryReserve sequencer available) with
    | mk result telemetry =>
      simp only [Senders.advance, called] at moved
      cases moved
      obtain ⟨live, numbered⟩ := numbered_publish ascending sound
        ((publishSystemMonitor_waiting called).imp_left
          fun ⟨queued, sequence, payload, reserved, _, after⟩ =>
            ⟨queued, _, given reserved, fun other member => by
              rw [after] at member
              exact (List.mem_cons.mp member).symm⟩)
      exact sound_of_numbered sound apart uniform sound.agrees live numbered
  | flush maxSamples subscriberCount =>
    cases moved
    exact sound_of_numbered sound apart uniform sound.agrees sound.live
      (numbered_flush sound maxSamples _)
  | command event =>
    obtain ⟨tasks, taken, rfl⟩ := Option.map_eq_some_iff.mp moved
    obtain ⟨live, numbered⟩ := numbered_command ascending lawful within sound taken
    exact sound_of_numbered sound apart uniform (agrees_taskStep lawful sound.agrees taken) live
      numbered
  | startSession link begun =>
    simp only [Senders.advance] at moved
    split at moved
    · cases moved
    cases moved
    have stays : ∀ other, senders.endpoints.started other ≤
        Function.update senders.endpoints.started link (senders.endpoints.started link + 1) other :=
      (forall_update fun other now => senders.endpoints.started other ≤ now).mpr
        ⟨Nat.le_succ _, fun _ _ => Nat.le_refl _⟩
    have nodes : ∀ other now, Function.update senders.endpoints.node link
        (if begun then some ⟨senders.endpoints.started link, sequencer.begun⟩ else none) other =
          some now → senders.endpoints.node other = some now ∨
        senders.endpoints.started other ≤ now.session ∧ now.session <
          Function.update senders.endpoints.started link (senders.endpoints.started link + 1)
            other := by
      intro other now held
      by_cases here : other = link
      · subst here
        rw [Function.update_self] at held
        split at held <;> cases held
        exact .inr ⟨Nat.le_refl _, by simp⟩
      · rw [Function.update_of_ne here] at held
        exact .inl held
    obtain ⟨live, numbered⟩ := numbered_session sound stays nodes
    exact sound_of_numbered sound apart uniform sound.agrees live numbered
  | disconnect link =>
    simp only [Senders.advance] at moved
    split at moved
    · cases moved
    cases moved
    have nodes : ∀ other now, Function.update senders.endpoints.node link none other = some now →
        senders.endpoints.node other = some now ∨
        senders.endpoints.started other ≤ now.session ∧
          now.session < senders.endpoints.started other := by
      intro other now held
      by_cases here : other = link
      · subst here
        rw [Function.update_self] at held
        cases held
      · rw [Function.update_of_ne here] at held
        exact .inl held
    obtain ⟨live, numbered⟩ := numbered_session sound (fun _ => Nat.le_refl _) nodes
    exact sound_of_numbered sound apart uniform sound.agrees live numbered
  | pump link bytes nowUs | status payload timestampUs | answer link channel message =>
    cases moved
    exact sound_logical ascending sound apart uniform rfl

theorem sound_start (lawful : api.dedup.Lawful kCacheCapacity) (identity : Identity)
    (keysLoaded : Bool) :
    Sound api sequencer (Senders.start api sequencer identity keysLoaded) where
  agrees := agrees_start lawful identity _ _
  live := by
    intro link node held
    cases held
  numbered := by
    have nothing : ∀ allocator number message,
        ¬Holds (Senders.start api sequencer identity keysLoaded) allocator number message := by
      rintro _ _ _ (member | carried | sent)
      · exact absurd (waiting_configure ▸ member) List.not_mem_nil
      · rcases carried with held | same | same
        · cases held
        · cases same
        · cases same
      · cases sent
    exact ⟨fun _ _ _ _ first _ => absurd first (nothing _ _ _),
      fun _ _ _ held => absurd held (nothing _ _ _)⟩
  apart := by
    intro one member
    cases member

/-- In a run in which every number that key E seals under again is used by the
endpoint it came from, and for a reply sent as it was made, no two different
messages leave the robot under key E with the same identity. -/
theorem key_e_seals_one_message_a_number (api : Api Cache) (sequencer : Sequencer Counter)
    (maxPayload : Link → Nat) (lawful : api.dedup.Lawful kCacheCapacity)
    (within : api.EncodesWithin) (ascending : sequencer.Ascending) (identity : Identity)
    (keysLoaded : Bool) (events : List Event) (senders : Senders Cache Counter)
    (meets : Along (step api sequencer maxPayload) (OwnNumbers api sequencer maxPayload)
      (Senders.start api sequencer identity keysLoaded) events)
    (ran : run (step api sequencer maxPayload)
      (Senders.start api sequencer identity keysLoaded) events = some senders) :
    ∀ one ∈ senders.left, ∀ two ∈ senders.left, one.sealedBy = some .radioSealE →
      two.sealedBy = some .radioSealE → one.triple = two.triple → one.message = two.message := by
  have sound : Sound api sequencer senders :=
    run_invariant_along
      (fun holds met stepped => sound_step ascending lawful within holds met stepped)
      (sound_start lawful identity keysLoaded) meets ran
  exact fun one first two second sealedOne sealedTwo same =>
    sound.apart one first two second ⟨sealedOne, sealedTwo, same⟩

def sendersBench : Senders (RingCache 16) Nat :=
  Senders.start referenceApi countingSequencer ⟨1, 2⟩ true

def benchPayload (_ : Link) : Nat := 210

def robotStateSubscribers (_ : Link) (topicId : UInt16) : UInt16 := if topicId = 2 then 1 else 0

/-- A sample goes to the radio and to a TCP session under its one number, and
terminal output to the radio under the next. -/
def sharedCounterTrace : List Event :=
  [.startSession .tcp true, .publish 2 [1, 0, 3] 100 true, .flush 8 robotStateSubscribers,
    .pump .espNow (text "ok") 200]

theorem one_message_of_shared_counter_trace : ∃ senders,
    run (step referenceApi countingSequencer benchPayload) sendersBench sharedCounterTrace =
      some senders ∧
    senders.left.length = 3 ∧ ∀ one ∈ senders.left, ∀ two ∈ senders.left,
      one.sealedBy = some .radioSealE → two.sealedBy = some .radioSealE →
        one.triple = two.triple → one.message = two.message := by
  have meets : Along (step referenceApi countingSequencer benchPayload)
      (OwnNumbers referenceApi countingSequencer benchPayload) sendersBench
      sharedCounterTrace := by
    apply along_of_step (by unfold OwnNumbers; decide) rfl
    apply along_of_step (by unfold OwnNumbers; decide) rfl
    apply along_of_step (by unfold OwnNumbers; decide) rfl
    exact along_of_step (by unfold OwnNumbers; decide) rfl trivial
  have apart := key_e_seals_one_message_a_number referenceApi countingSequencer benchPayload
    (ringCache_lawful 16) referenceApi_encodesWithin countingSequencer_ascending ⟨1, 2⟩ true
    sharedCounterTrace _ meets rfl
  exact ⟨_, rfl, rfl, apart⟩

/-- A TCP session has terminal output, ends, and a new one has other output. -/
def restartedSessionTrace : List Event :=
  [.startSession .tcp true, .pump .tcp (text "h") 100, .disconnect .tcp,
    .startSession .tcp true, .pump .tcp (text "l") 200]

/-- The new session's counter starts where the old one's did: two messages
under key E have one identity. -/
theorem restarted_session_repeats_number : ¬∀ events senders,
    run (step referenceApi countingSequencer benchPayload) sendersBench events = some senders →
      ∀ one ∈ senders.left, ∀ two ∈ senders.left, one.sealedBy = some .radioSealE →
        two.sealedBy = some .radioSealE → one.triple = two.triple → one.message = two.message := by
  intro every
  have same := every restartedSessionTrace _ rfl
    ⟨some .radioSealE, ⟨1, 2, 1⟩, ⟨.terminal, 2, 100, text "h"⟩, .session .tcp 0,
      ⟨.terminal, 2, 100, text "h"⟩⟩ (by decide)
    ⟨some .radioSealE, ⟨1, 2, 1⟩, ⟨.terminal, 2, 200, text "l"⟩, .session .tcp 1,
      ⟨.terminal, 2, 200, text "l"⟩⟩ (by decide) rfl rfl rfl
  exact absurd same (by decide)

end BallyOS.Sequence
