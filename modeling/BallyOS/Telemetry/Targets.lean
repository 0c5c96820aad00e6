import Mathlib.Algebra.GroupWithZero.Nat
import BallyOS.Telemetry.Publisher

/-! The publisher's audiences: the radio and the three direct transports, each
with its endpoint, its seal and the table of who subscribed on it. Endpoints,
seals and tables live outside; a table is what it answers, and whether a send
is taken may depend on everything sent before. -/
namespace BallyOS.Telemetry
open Btp Library

/-- What a subscription table answers about a topic. -/
structure SubscriptionTable where
  subscriberCount : UInt16 → UInt16
  aggregateRateMillihz : UInt16 → UInt32

/-- One send destination. Without a table it is not gated. -/
structure TargetView (Endpoint Seal : Type) where
  endpoint : Option Endpoint
  sealFn : Option Seal
  subscriptions : Option SubscriptionTable

def TargetView.unbound : TargetView Endpoint Seal := ⟨none, none, none⟩

/-- The radio's endpoint and table are bound apart, the others' together. -/
structure Bindings (Endpoint Seal : Type) where
  base : TargetView Endpoint Seal
  tcp : TargetView Endpoint Seal
  ble : TargetView Endpoint Seal
  serial : TargetView Endpoint Seal

namespace Bindings

def none : Bindings Endpoint Seal := ⟨.unbound, .unbound, .unbound, .unbound⟩

def configure (bindings : Bindings Endpoint Seal) (endpoint : Endpoint) (sealFn : Option Seal) :
    Bindings Endpoint Seal :=
  { bindings with base := ⟨some endpoint, sealFn, bindings.base.subscriptions⟩ }

def bindSubscriptions (bindings : Bindings Endpoint Seal) (subscriptions : SubscriptionTable) :
    Bindings Endpoint Seal :=
  { bindings with base := { bindings.base with subscriptions := some subscriptions } }

def bindTcpTarget (bindings : Bindings Endpoint Seal) (endpoint : Endpoint) (sealFn : Option Seal)
    (subscriptions : SubscriptionTable) : Bindings Endpoint Seal :=
  { bindings with tcp := ⟨some endpoint, sealFn, some subscriptions⟩ }

def unbindTcpTarget (bindings : Bindings Endpoint Seal) : Bindings Endpoint Seal :=
  { bindings with tcp := .unbound }

def bindBleTarget (bindings : Bindings Endpoint Seal) (endpoint : Endpoint) (sealFn : Option Seal)
    (subscriptions : SubscriptionTable) : Bindings Endpoint Seal :=
  { bindings with ble := ⟨some endpoint, sealFn, some subscriptions⟩ }

def unbindBleTarget (bindings : Bindings Endpoint Seal) : Bindings Endpoint Seal :=
  { bindings with ble := .unbound }

def bindSerialTarget (bindings : Bindings Endpoint Seal) (endpoint : Endpoint)
    (sealFn : Option Seal) (subscriptions : SubscriptionTable) : Bindings Endpoint Seal :=
  { bindings with serial := ⟨some endpoint, sealFn, some subscriptions⟩ }

def unbindSerialTarget (bindings : Bindings Endpoint Seal) : Bindings Endpoint Seal :=
  { bindings with serial := .unbound }

def view (bindings : Bindings Endpoint Seal) : Link → TargetView Endpoint Seal
  | .espNow => bindings.base
  | .tcp => bindings.tcp
  | .ble => bindings.ble
  | .serial => bindings.serial

/-- The radio counts as soon as its table is bound, the others with their endpoint. -/
def collectTargets (bindings : Bindings Endpoint Seal) : List (Link × TargetView Endpoint Seal) :=
  (if bindings.base.endpoint.isSome || bindings.base.subscriptions.isSome then
    [(.espNow, bindings.base)] else []) ++
  (if bindings.tcp.endpoint.isSome then [(.tcp, bindings.tcp)] else []) ++
  (if bindings.ble.endpoint.isSome then [(.ble, bindings.ble)] else []) ++
  (if bindings.serial.endpoint.isSome then [(.serial, bindings.serial)] else [])

end Bindings

/-- A call that binds or unbinds. -/
inductive Rebinding (Endpoint Seal : Type)
  | configure (endpoint : Endpoint) (sealFn : Option Seal)
  | bindSubscriptions (subscriptions : SubscriptionTable)
  | bindTcpTarget (endpoint : Endpoint) (sealFn : Option Seal)
      (subscriptions : SubscriptionTable)
  | unbindTcpTarget
  | bindBleTarget (endpoint : Endpoint) (sealFn : Option Seal)
      (subscriptions : SubscriptionTable)
  | unbindBleTarget
  | bindSerialTarget (endpoint : Endpoint) (sealFn : Option Seal)
      (subscriptions : SubscriptionTable)
  | unbindSerialTarget

def Bindings.apply (bindings : Bindings Endpoint Seal) :
    Rebinding Endpoint Seal → Bindings Endpoint Seal
  | .configure endpoint sealFn => bindings.configure endpoint sealFn
  | .bindSubscriptions subscriptions => bindings.bindSubscriptions subscriptions
  | .bindTcpTarget endpoint sealFn subscriptions =>
    bindings.bindTcpTarget endpoint sealFn subscriptions
  | .unbindTcpTarget => bindings.unbindTcpTarget
  | .bindBleTarget endpoint sealFn subscriptions =>
    bindings.bindBleTarget endpoint sealFn subscriptions
  | .unbindBleTarget => bindings.unbindBleTarget
  | .bindSerialTarget endpoint sealFn subscriptions =>
    bindings.bindSerialTarget endpoint sealFn subscriptions
  | .unbindSerialTarget => bindings.unbindSerialTarget

def Bindings.bound (calls : List (Rebinding Endpoint Seal)) : Bindings Endpoint Seal :=
  calls.foldl Bindings.apply .none

/-! ### Sending -/

/-- How an endpoint is handed a sample: a numeric one is one fragment, a report is
as many as the endpoint's own limits ask for. -/
inductive SendCall (Endpoint Seal : Type)
  | sendFragment (endpoint : Endpoint) (type : MessageType) (objectId : UInt16)
      (sequence : UInt32) (timestampUs : UInt64) (payload : List UInt8)
      (fragmentIndex fragmentCount : UInt8) (sealFn : Option Seal)
  | sendLogicalReserved (endpoint : Endpoint) (type : MessageType) (objectId : UInt16)
      (sequence : UInt32) (payload : List UInt8) (timestampUs : UInt64) (sealFn : Option Seal)

def sendSample (endpoint : Endpoint) (sealFn : Option Seal) (sample : Sample) :
    SendCall Endpoint Seal :=
  .sendFragment endpoint .telemetry sample.topicId sample.sequence sample.timestampUs
    sample.payload 0 1 sealFn

def sendDocument (endpoint : Endpoint) (sealFn : Option Seal) (document : Sample) :
    SendCall Endpoint Seal :=
  .sendLogicalReserved endpoint .telemetry kSystemMonitorTopicId document.sequence
    document.payload document.timestampUs sealFn

/-- What a flush has called, in order, with the totals it keeps. -/
structure Sends (Endpoint Seal : Type) where
  calls : List (Link × SendCall Endpoint Seal)
  sentTotal : UInt32
  sendFailed : UInt32

/-- Whether the endpoints take a call, given everything called before it. -/
abbrev Outcomes (Endpoint Seal : Type) :=
  List (Link × SendCall Endpoint Seal) → Link × SendCall Endpoint Seal → Bool

/-- Whether a target is to be sent a topic. -/
def TargetView.admits (target : TargetView Endpoint Seal) (topicId : UInt16) : Bool :=
  match target.subscriptions with
  | none => true
  | some table => table.subscriberCount topicId ≠ 0

/-- The loop over the targets, for one sample of either kind. -/
def offer (outcomes : Outcomes Endpoint Seal) (topicId : UInt16)
    (send : Endpoint → Option Seal → SendCall Endpoint Seal) :
    List (Link × TargetView Endpoint Seal) → Sends Endpoint Seal → Sends Endpoint Seal
  | [], sends => sends
  | (link, target) :: rest, sends =>
    match target.endpoint with
    | none => offer outcomes topicId send rest sends
    | some endpoint =>
      if !target.admits topicId then offer outcomes topicId send rest sends
      else
        let call := (link, send endpoint target.sealFn)
        let sent := outcomes sends.calls call
        offer outcomes topicId send rest
          { calls := sends.calls ++ [call]
            sentTotal := if sent then sends.sentTotal + 1 else sends.sentTotal
            sendFailed := if sent then sends.sendFailed else sends.sendFailed + 1 }

/-- The queue part of a flush call: it stops at the most it may take or at the
write index, and lets go of each sample after the last target. -/
def flushQueue (outcomes : Outcomes Endpoint Seal)
    (targets : List (Link × TargetView Endpoint Seal)) :
    Nat → Publisher → Sends Endpoint Seal → Nat × Publisher × Sends Endpoint Seal
  | 0, publisher, sends => (0, publisher, sends)
  | more + 1, publisher, sends =>
    if publisher.readIndex = publisher.writeIndex then (0, publisher, sends)
    else
      let sample := publisher.queue (publisher.readIndex.toNat % kQueueCapacity)
      let sends := offer outcomes sample.topicId (sendSample · · sample) targets sends
      let (processed, after) := flushQueue outcomes targets more
        { publisher with readIndex := publisher.readIndex + 1 } sends
      (processed + 1, after)

/-- A flush call: how many samples it was through, what it left and what it sent. -/
def flushTargets (bindings : Bindings Endpoint Seal) (outcomes : Outcomes Endpoint Seal)
    (publisher : Publisher) (maxSamples : Nat) (sends : Sends Endpoint Seal) :
    Nat × Publisher × Sends Endpoint Seal :=
  let targets := bindings.collectTargets
  if targets.length = 0 then (0, publisher, sends)
  else match publisher.monitorStage, maxSamples with
    | some document, more + 1 =>
      let sends := offer outcomes kSystemMonitorTopicId (sendDocument · · document) targets sends
      let (processed, after) := flushQueue outcomes targets more
        { publisher with monitorStage := none } sends
      (processed + 1, after)
    | _, maxSamples => flushQueue outcomes targets maxSamples publisher sends

/-! ### The aggregates -/

def topicSubscriberCount (bindings : Bindings Endpoint Seal) (topicId : UInt16) : UInt16 :=
  if topicId = 0 then 0
  else
    let count := bindings.collectTargets.foldl (fun (count : UInt32) target =>
      match target.2.subscriptions with
      | none => count
      | some table => count + (table.subscriberCount topicId).toUInt32) 0
    count.toUInt16

def topicEffectiveRateMillihz (bindings : Bindings Endpoint Seal) (topicId : UInt16) : UInt32 :=
  if topicId = 0 then 0
  else bindings.collectTargets.foldl (fun rate target =>
    match target.2.subscriptions with
    | none => rate
    | some table =>
      let targetRate := table.aggregateRateMillihz topicId
      if targetRate > rate then targetRate else rate) 0

/-! ### What each target is called with -/

/-- The one call a target gets for a sample, or none. -/
def TargetView.calls (target : TargetView Endpoint Seal) (link : Link) (topicId : UInt16)
    (send : Endpoint → Option Seal → SendCall Endpoint Seal) :
    List (Link × SendCall Endpoint Seal) :=
  match target.endpoint with
  | none => []
  | some endpoint => if target.admits topicId then [(link, send endpoint target.sealFn)] else []

private theorem offer_calls (outcomes : Outcomes Endpoint Seal) (topicId : UInt16)
    (send : Endpoint → Option Seal → SendCall Endpoint Seal)
    (targets : List (Link × TargetView Endpoint Seal)) (sends : Sends Endpoint Seal) :
    (offer outcomes topicId send targets sends).calls =
      sends.calls ++ targets.flatMap fun target => target.2.calls target.1 topicId send := by
  induction targets generalizing sends with
  | nil => simp [offer]
  | cons target rest ih =>
    obtain ⟨link, target⟩ := target
    rw [List.flatMap_cons, TargetView.calls]
    unfold offer
    cases target.endpoint with
    | none => exact ih sends
    | some endpoint =>
      cases admitted : target.admits topicId with
      | false => exact ih sends
      | true =>
        apply (ih _).trans
        rw [List.append_assoc]
        rfl

/-- A target that cannot be sent to is called as if it were not there. -/
private theorem collected_calls (target : TargetView Endpoint Seal) (link : Link) (table : Bool)
    (topicId : UInt16) (send : Endpoint → Option Seal → SendCall Endpoint Seal) :
    ((if (target.endpoint.isSome || table) = true then [(link, target)] else []).flatMap
      fun target => target.2.calls target.1 topicId send) = target.calls link topicId send := by
  unfold TargetView.calls
  cases bound : target.endpoint with
  | none => cases table <;> simp [bound]
  | some endpoint => simp [bound]

private theorem collectTargets_calls (bindings : Bindings Endpoint Seal) (topicId : UInt16)
    (send : Endpoint → Option Seal → SendCall Endpoint Seal) :
    (bindings.collectTargets.flatMap fun target => target.2.calls target.1 topicId send) =
      bindings.base.calls .espNow topicId send ++ bindings.tcp.calls .tcp topicId send ++
        bindings.ble.calls .ble topicId send ++ bindings.serial.calls .serial topicId send := by
  have base := collected_calls bindings.base .espNow bindings.base.subscriptions.isSome topicId send
  have tcp := collected_calls bindings.tcp .tcp false topicId send
  have ble := collected_calls bindings.ble .ble false topicId send
  have serial := collected_calls bindings.serial .serial false topicId send
  simp only [Bool.or_false] at tcp ble serial
  simp only [Bindings.collectTargets, List.flatMap_append, base, tcp, ble, serial]

private theorem calls_on (target : TargetView Endpoint Seal) (own link : Link) (topicId : UInt16)
    (send : Endpoint → Option Seal → SendCall Endpoint Seal) :
    (target.calls own topicId send).filter (fun call => call.1 = link) =
      if own = link then target.calls own topicId send else [] := by
  unfold TargetView.calls
  cases target.endpoint with
  | none => simp
  | some endpoint =>
    cases target.admits topicId with
    | false => simp
    | true => by_cases same : own = link <;> simp [same]

/-- What one target is called with for a sample depends on that target alone. -/
theorem collectTargets_calls_on (bindings : Bindings Endpoint Seal) (link : Link)
    (topicId : UInt16) (send : Endpoint → Option Seal → SendCall Endpoint Seal) :
    (bindings.collectTargets.flatMap fun target => target.2.calls target.1 topicId send).filter
      (fun call => call.1 = link) = (bindings.view link).calls link topicId send := by
  rw [collectTargets_calls, List.filter_append, List.filter_append, List.filter_append,
    calls_on, calls_on, calls_on, calls_on]
  cases link <;> simp [Bindings.view]

/-- The calls for a numeric sample, over all targets. -/
def sampleCalls (targets : List (Link × TargetView Endpoint Seal)) (sample : Sample) :
    List (Link × SendCall Endpoint Seal) :=
  targets.flatMap fun target => target.2.calls target.1 sample.topicId (sendSample · · sample)

def documentCalls (targets : List (Link × TargetView Endpoint Seal)) (document : Sample) :
    List (Link × SendCall Endpoint Seal) :=
  targets.flatMap fun target =>
    target.2.calls target.1 kSystemMonitorTopicId (sendDocument · · document)

/-- The loop takes what the queue's own model takes, and calls for each sample in turn. -/
theorem flushQueue_taken (outcomes : Outcomes Endpoint Seal)
    (targets : List (Link × TargetView Endpoint Seal)) (more : Nat) (publisher : Publisher)
    (sends : Sends Endpoint Seal) :
    let flushed := flushQueue outcomes targets more publisher sends
    let taken := takeQueued more publisher
    flushed.1 = taken.1.length ∧ flushed.2.1 = taken.2 ∧
      flushed.2.2.calls = sends.calls ++ taken.1.flatMap (sampleCalls targets) := by
  induction more generalizing publisher sends with
  | zero => simp [flushQueue, takeQueued]
  | succ more ih =>
    by_cases drained : publisher.readIndex = publisher.writeIndex
    · simp [flushQueue, takeQueued, drained]
    · simp only [flushQueue, takeQueued, if_neg drained]
      obtain ⟨processed, after, calls⟩ := ih { publisher with
        readIndex := publisher.readIndex + 1 } (offer outcomes
          (publisher.queue (publisher.readIndex.toNat % kQueueCapacity)).topicId
          (sendSample · · (publisher.queue (publisher.readIndex.toNat % kQueueCapacity)))
          targets sends)
      refine ⟨congrArg (· + 1) processed, after, calls.trans ?_⟩
      rw [offer_calls, List.append_assoc, List.flatMap_cons]
      rfl

/-- The targets as the queue's own model has them. -/
def Bindings.targets (bindings : Bindings Endpoint Seal) : List Target :=
  bindings.collectTargets.map fun target =>
    ⟨target.1, target.2.subscriptions.map SubscriptionTable.subscriberCount⟩

/-- What a flush call takes, and in that order what it calls, whatever the endpoints answer. -/
theorem flushTargets_taken (bindings : Bindings Endpoint Seal) (publisher : Publisher)
    (maxSamples : Nat) : ∃ documents samples,
    documents <+: publisher.monitorStage.toList ∧ samples <+: publisher.pending ∧
    (flush publisher maxSamples bindings.targets).1 = documents ++ samples ∧
    ∀ (outcomes : Outcomes Endpoint Seal) (sends : Sends Endpoint Seal),
      let flushed := flushTargets bindings outcomes publisher maxSamples sends
      flushed.1 = (documents ++ samples).length ∧
      flushed.2.1 = (flush publisher maxSamples bindings.targets).2 ∧
      flushed.2.2.calls = sends.calls ++
        documents.flatMap (documentCalls bindings.collectTargets) ++
        samples.flatMap (sampleCalls bindings.collectTargets) := by
  by_cases empty : bindings.collectTargets = []
  · have unbound : bindings.targets = [] := by rw [Bindings.targets, empty, List.map_nil]
    refine ⟨[], [], List.nil_prefix, List.nil_prefix, ?_, fun outcomes sends => ?_⟩
    · simp [flush, unbound]
    · simp [flushTargets, empty, flush, unbound]
  have bound : bindings.targets ≠ [] := fun same => empty (List.map_eq_nil_iff.mp same)
  have several : ¬ bindings.collectTargets.length = 0 :=
    fun same => empty (List.length_eq_zero_iff.mp same)
  by_cases first : ∃ document more, publisher.monitorStage = some document ∧ maxSamples = more + 1
  · obtain ⟨document, more, staged, rfl⟩ := first
    have pending := (takeQueued_pending more { publisher with monitorStage := none }).1
    rw [flush_staged bound staged]
    refine ⟨[document], _, ?_, ⟨_, pending⟩, rfl, fun outcomes sends => ?_⟩
    · rw [staged]
      exact List.prefix_rfl
    obtain ⟨processed, after, calls⟩ := flushQueue_taken outcomes bindings.collectTargets more
      { publisher with monitorStage := none } (offer outcomes kSystemMonitorTopicId
        (sendDocument · · document) bindings.collectTargets sends)
    simp only [flushTargets, if_neg several, staged]
    refine ⟨congrArg (· + 1) processed, after, calls.trans ?_⟩
    rw [offer_calls, List.flatMap_singleton]
    rfl
  · have free : maxSamples = 0 ∨ publisher.monitorStage = none := by
      cases staged : publisher.monitorStage with
      | none => exact .inr rfl
      | some document =>
        cases maxSamples with
        | zero => exact .inl rfl
        | succ more => exact absurd ⟨document, more, staged, rfl⟩ first
    have pending := (takeQueued_pending maxSamples publisher).1
    rw [flush_queued bound free]
    refine ⟨[], _, List.nil_prefix, ⟨_, pending⟩, rfl, fun outcomes sends => ?_⟩
    have taken := flushQueue_taken outcomes bindings.collectTargets maxSamples publisher sends
    have queued : flushTargets bindings outcomes publisher maxSamples sends =
        flushQueue outcomes bindings.collectTargets maxSamples publisher sends := by
      simp only [flushTargets, if_neg several]
      obtain rfl | staged := free
      · cases publisher.monitorStage <;> rfl
      · rw [staged]
    rw [queued, List.flatMap_nil, List.append_nil]
    exact taken

/-! ### The tables asked -/

def TargetView.tables (target : TargetView Endpoint Seal) : List SubscriptionTable :=
  target.subscriptions.toList

/-- The tables of the targets that can be sent to. -/
def Bindings.sendableTables (bindings : Bindings Endpoint Seal) : List SubscriptionTable :=
  [Link.espNow, .tcp, .ble, .serial].flatMap fun link =>
    if (bindings.view link).endpoint.isSome then (bindings.view link).tables else []

/-- The radio's table while it is bound before the radio's endpoint. -/
def Bindings.earlyTables (bindings : Bindings Endpoint Seal) : List SubscriptionTable :=
  if bindings.base.endpoint.isSome then [] else bindings.base.tables

/-- The inventory holds the tables of the targets that can be sent to, and before
them the radio's, be it early. -/
theorem tables_collectTargets (bindings : Bindings Endpoint Seal) :
    (bindings.collectTargets.flatMap fun target => target.2.tables) =
      bindings.earlyTables ++ bindings.sendableTables := by
  have collected (target : TargetView Endpoint Seal) (link : Link) :
      ((if target.endpoint.isSome = true then [(link, target)] else []).flatMap
        fun target => target.2.tables) = if target.endpoint.isSome then target.tables else [] := by
    split <;> simp
  have base : ((if (bindings.base.endpoint.isSome || bindings.base.subscriptions.isSome) = true
      then [(Link.espNow, bindings.base)] else []).flatMap fun target => target.2.tables) =
      bindings.earlyTables ++
        if bindings.base.endpoint.isSome then bindings.base.tables else [] := by
    unfold Bindings.earlyTables TargetView.tables
    cases reached : bindings.base.endpoint <;> cases bound : bindings.base.subscriptions <;>
      simp [bound]
  simp only [Bindings.collectTargets, List.flatMap_append, base, collected, List.append_assoc]
  simp only [Bindings.sendableTables, Bindings.view, List.flatMap_cons, List.flatMap_nil,
    List.append_nil]
  rfl

private theorem subscribers_fold (topicId : UInt16)
    (targets : List (Link × TargetView Endpoint Seal))
    (start : UInt32) :
    (targets.foldl (fun (count : UInt32) target =>
      match target.2.subscriptions with
      | none => count
      | some table => count + (table.subscriberCount topicId).toUInt32) start).toUInt16.toNat =
      (start.toNat + ((targets.flatMap fun target => target.2.tables).map fun table =>
        (table.subscriberCount topicId).toNat).sum) % 2 ^ 16 := by
  induction targets generalizing start with
  | nil => simp
  | cons target rest ih =>
    rw [List.foldl_cons, ih, List.flatMap_cons, List.map_append, List.sum_append]
    cases bound : target.2.subscriptions with
    | none => simp [TargetView.tables, bound]
    | some table =>
      have shrink : ((start + (table.subscriberCount topicId).toUInt32).toNat) % 2 ^ 16 =
          (start.toNat + (table.subscriberCount topicId).toNat) % 2 ^ 16 := by
        simp only [UInt32.toNat_add, UInt16.toNat_toUInt32]
        omega
      simp only [TargetView.tables, bound, Option.toList_some, List.map_singleton,
        List.sum_singleton]
      rw [Nat.add_mod, shrink, ← Nat.add_mod, Nat.add_assoc]

/-- The fold keeps the largest rate it has met, the first one included. -/
theorem rates_fold (topicId : UInt16) (targets : List (Link × TargetView Endpoint Seal))
    (start : UInt32) :
    let rate := targets.foldl (fun rate target =>
      match target.2.subscriptions with
      | none => rate
      | some table =>
        let targetRate := table.aggregateRateMillihz topicId
        if targetRate > rate then targetRate else rate) start
    let tables := targets.flatMap fun target => target.2.tables
    start ≤ rate ∧ (∀ table ∈ tables, table.aggregateRateMillihz topicId ≤ rate) ∧
      (rate = start ∨ ∃ table ∈ tables, table.aggregateRateMillihz topicId = rate) := by
  induction targets generalizing start with
  | nil => exact ⟨UInt32.le_refl start, fun _ member => absurd member List.not_mem_nil, .inl rfl⟩
  | cons target rest ih =>
    rw [List.foldl_cons, List.flatMap_cons]
    cases bound : target.2.subscriptions with
    | none =>
      have nothing : target.2.tables = [] := by rw [TargetView.tables, bound, Option.toList_none]
      rw [nothing, List.nil_append]
      exact ih start
    | some table =>
      have one : target.2.tables = [table] := by rw [TargetView.tables, bound, Option.toList_some]
      rw [one, List.singleton_append]
      obtain ⟨above, all, reached⟩ := ih (if table.aggregateRateMillihz topicId > start then
        table.aggregateRateMillihz topicId else start)
      by_cases faster : table.aggregateRateMillihz topicId > start
      · simp only [if_pos faster] at above all reached ⊢
        refine ⟨UInt32.le_trans (UInt32.le_of_lt faster) above, ?_, .inr ?_⟩
        · exact List.forall_mem_cons.mpr ⟨above, all⟩
        · obtain same | ⟨other, member, same⟩ := reached
          · exact ⟨table, List.mem_cons_self, same.symm⟩
          · exact ⟨other, List.mem_cons_of_mem _ member, same⟩
      · simp only [if_neg faster] at above all reached ⊢
        refine ⟨above, ?_, ?_⟩
        · exact List.forall_mem_cons.mpr
            ⟨UInt32.le_trans (UInt32.not_lt.mp faster) above, all⟩
        · obtain same | ⟨other, member, same⟩ := reached
          · exact .inl same
          · exact .inr ⟨other, List.mem_cons_of_mem _ member, same⟩

/-- The rate that the tables together ask for: the largest, or none at all. -/
def IsFastest (tables : List SubscriptionTable) (topicId : UInt16) (rate : UInt32) : Prop :=
  (∀ table ∈ tables, table.aggregateRateMillihz topicId ≤ rate) ∧
    (rate = 0 ∨ ∃ table ∈ tables, table.aggregateRateMillihz topicId = rate)

/-- Of a flush call, each target is called once for every sample taken while it
has an endpoint and admits the topic, and for no other, whatever it or another
target answers. What decides whether a topic is produced at all is taken over the
tables of the targets with an endpoint, and over the radio's while it has none yet. -/
theorem targets_independent (rebindings : List (Rebinding Endpoint Seal)) (publisher : Publisher)
    (maxSamples : Nat) :
    let bindings := Bindings.bound rebindings
    (∃ documents samples calls,
      documents <+: publisher.monitorStage.toList ∧ samples <+: publisher.pending ∧
      (∀ (outcomes : Outcomes Endpoint Seal) (sends : Sends Endpoint Seal),
        let flushed := flushTargets bindings outcomes publisher maxSamples sends
        (flush publisher maxSamples bindings.targets) = (documents ++ samples, flushed.2.1) ∧
        flushed.1 = (documents ++ samples).length ∧
        flushed.2.2.calls = sends.calls ++ calls) ∧
      ∀ link, calls.filter (fun call => call.1 = link) =
        (documents.flatMap fun document => (bindings.view link).calls link kSystemMonitorTopicId
          (sendDocument · · document)) ++
        samples.flatMap fun sample => (bindings.view link).calls link sample.topicId
          (sendSample · · sample)) ∧
    (∀ topicId, (topicSubscriberCount bindings topicId).toNat =
      if topicId = 0 then 0
      else ((bindings.earlyTables ++ bindings.sendableTables).map fun table =>
        (table.subscriberCount topicId).toNat).sum % 2 ^ 16) ∧
    ∀ topicId, if topicId = 0 then topicEffectiveRateMillihz bindings topicId = 0
      else IsFastest (bindings.earlyTables ++ bindings.sendableTables) topicId
        (topicEffectiveRateMillihz bindings topicId) := by
  intro bindings
  have tables := tables_collectTargets bindings
  refine ⟨?_, fun topicId => ?_, fun topicId => ?_⟩
  · obtain ⟨documents, samples, staged, pending, taken, flushed⟩ :=
      flushTargets_taken bindings publisher maxSamples
    refine ⟨documents, samples, documents.flatMap (documentCalls bindings.collectTargets) ++
      samples.flatMap (sampleCalls bindings.collectTargets), staged, pending, ?_, fun link => ?_⟩
    · intro outcomes sends
      obtain ⟨processed, after, calls⟩ := flushed outcomes sends
      exact ⟨Prod.ext taken after.symm, processed, calls.trans (List.append_assoc ..)⟩
    · rw [List.filter_append, List.filter_flatMap, List.filter_flatMap]
      simp only [documentCalls, sampleCalls, collectTargets_calls_on]
  · unfold topicSubscriberCount
    split
    · rfl
    · rw [subscribers_fold, tables]
      exact congrArg (· % 2 ^ 16) (Nat.zero_add _)
  · split
    · rename_i zero
      exact if_pos zero
    · rename_i topic
      obtain ⟨-, all, reached⟩ := rates_fold topicId bindings.collectTargets 0
      rw [tables] at all reached
      rw [topicEffectiveRateMillihz, if_neg topic]
      exact ⟨all, reached⟩

/-- The radio's table counts before the radio can be sent to. -/
theorem early_table_counts : ¬ ∀ (rebindings : List (Rebinding Unit Unit)) (topicId : UInt16),
    (topicSubscriberCount (.bound rebindings) topicId).toNat =
        ((Bindings.bound rebindings).sendableTables.map fun table =>
          (table.subscriberCount topicId).toNat).sum % 2 ^ 16 ∧
      IsFastest (Bindings.bound rebindings).sendableTables topicId
        (topicEffectiveRateMillihz (.bound rebindings) topicId) := by
  intro always
  obtain ⟨sum, -⟩ := always [.bindSubscriptions ⟨fun _ => 1, fun _ => 10000⟩] 2
  exact absurd sum (by decide)

end BallyOS.Telemetry
