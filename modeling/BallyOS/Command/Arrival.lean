import BallyOS.Command.Processor

/-! What can become of one arrival, said once: the inversion of `intake` that
every invariant of the processor is derived from. -/
namespace BallyOS.Command
open Btp

variable {Cache Seal : Type} {api : Api Cache}

/-- The processor after a fresh verdict reserved a slot for a request. -/
def Processor.reserve (processor : Processor Cache Seal) (slot : Nat) (request : SlotMeta)
    (dedup : Cache) : Processor Cache Seal :=
  { processor with dedup, slotMeta := Function.update processor.slotMeta slot request }

@[simp] theorem Processor.reserve_slotMeta (processor : Processor Cache Seal) (slot : Nat)
    (request : SlotMeta) (dedup : Cache) :
    (processor.reserve slot request dedup).slotMeta slot = request :=
  Function.update_self ..

@[simp] theorem Processor.reserve_seals (processor : Processor Cache Seal) (slot : Nat)
    (request : SlotMeta) (dedup : Cache) :
    (processor.reserve slot request dedup).seals = processor.seals := rfl

/-- What a request gets whose identity was not fresh: a replay, a reply that is
not cached, or nothing. -/
inductive Known (api : Api Cache) (processor : Processor Cache Seal) (request : SlotMeta)
    (reserved : Option UInt32) : DedupVerdict → Intake → Processor Cache Seal → Prop
  | replayed : Known api processor request reserved (.duplicateComplete stored)
      (.resultReady (replayView processor stored request.channel).1)
      (replayView processor stored request.channel).2
  | refused : makeTransient api processor request status error message nowUs reserved =
        some (view, after) →
      Known api processor request reserved verdict (.resultReady view) after
  | silent : (outcome = .duplicateInProgress ∨ outcome = .ignored) →
      Known api processor request reserved verdict outcome processor

/-- What became of one arrival. -/
inductive Arrived (api : Api Cache) (processor : Processor Cache Seal) (contended : Bool)
    (header : Header) (payload : List UInt8) (reserved : Option UInt32) (channel : Channel) :
    Intake → Processor Cache Seal → Prop
  | dropped : heard processor contended header payload = false →
      Arrived api processor contended header payload reserved channel .ignored processor
  | known : heard processor contended header payload = true →
      api.dedup.classify processor.dedup header.key payload = (verdict, dedup) →
      (∀ slot, verdict ≠ .fresh slot) →
      Known api { processor with dedup } (requestMeta header.key payload channel) reserved verdict
        outcome after →
      Arrived api processor contended header payload reserved channel outcome after
  | handedOut : heard processor contended header payload = true →
      api.dedup.classify processor.dedup header.key payload = (.fresh slot, dedup) →
      Arrived api processor contended header payload reserved channel (.ready slot command)
        (processor.reserve slot (requestMeta header.key payload channel) dedup)
  | answered : heard processor contended header payload = true →
      api.dedup.classify processor.dedup header.key payload = (.fresh slot, dedup) →
      finish api (processor.reserve slot (requestMeta header.key payload channel) dedup) slot
        status error message nowUs reserved .rx = some (view, after) →
      Arrived api processor contended header payload reserved channel (.resultReady view) after
  | unanswered : heard processor contended header payload = true →
      api.dedup.classify processor.dedup header.key payload = (.fresh slot, dedup) →
      Arrived api processor contended header payload reserved channel .ignored
        (processor.reserve slot (requestMeta header.key payload channel) dedup)

/-- A reply that is not cached: what it needed and what it left. -/
theorem makeTransient_some {processor : Processor Cache Seal}
    (made : makeTransient api processor request status error message nowUs reserved =
      some (view, after)) :
    ∃ number payload, reserved = some number ∧
      encodeResult api request status error message kMaxResultPayloadSize = some payload ∧
      view = ⟨number, nowUs, some .rx, payload.length, request.channel⟩ ∧
      after = processor.fill .rx payload := by
  simp only [makeTransient] at made
  split at made
  · cases made
  simp only [Option.bind_eq_bind, Option.bind_eq_some_iff] at made
  obtain ⟨number, left, payload, coded, same⟩ := made
  cases same
  exact ⟨number, payload, left, coded, rfl, rfl⟩

/-- A replay writes the receive buffer and nothing else. -/
theorem replayView_fill (processor : Processor Cache Seal) (stored : List UInt8)
    (channel : Channel) : ∃ bytes, (replayView processor stored channel).2 =
      processor.fill .rx bytes := by
  unfold replayView
  split
  · exact ⟨[], rfl⟩
  · exact ⟨_, rfl⟩

/-- A known request changes at most the receive buffer, and that only when it
gets a reply. -/
theorem known_fill {processor : Processor Cache Seal}
    (known : Known api processor request reserved verdict outcome after) :
    (∀ slot command, outcome ≠ .ready slot command) ∧
      (after = processor ∨
        ∃ view bytes, outcome = .resultReady view ∧ after = processor.fill .rx bytes) := by
  cases known with
  | replayed =>
    obtain ⟨bytes, same⟩ := replayView_fill processor _ request.channel
    exact ⟨by simp, .inr ⟨_, bytes, rfl, same⟩⟩
  | refused made =>
    obtain ⟨_, payload, _, _, _, same⟩ := makeTransient_some made
    exact ⟨by simp, .inr ⟨_, payload, rfl, same⟩⟩
  | silent none =>
    rcases none with rfl | rfl
    · exact ⟨by simp, .inl rfl⟩
    · exact ⟨by simp, .inl rfl⟩

theorem known_dedup {processor : Processor Cache Seal}
    (known : Known api processor request reserved verdict outcome after) :
    after.dedup = processor.dedup := by
  rcases (known_fill known).2 with rfl | ⟨_, _, _, rfl⟩
  · rfl
  · exact Processor.fill_dedup processor

theorem known_slotMeta {processor : Processor Cache Seal}
    (known : Known api processor request reserved verdict outcome after) :
    after.slotMeta = processor.slotMeta := by
  rcases (known_fill known).2 with rfl | ⟨_, _, _, rfl⟩
  · rfl
  · exact Processor.fill_slotMeta processor

theorem known_endpoint {processor : Processor Cache Seal}
    (known : Known api processor request reserved verdict outcome after) :
    after.endpoint = processor.endpoint := by
  rcases (known_fill known).2 with rfl | ⟨_, _, _, rfl⟩
  · rfl
  · exact Processor.fill_endpoint processor

private theorem known_of_answered {processor : Processor Cache Seal}
    (same : answered processor
      (makeTransient api processor request status error message nowUs reserved) =
        (outcome, after)) :
    Known api processor request reserved verdict outcome after := by
  simp only [answered] at same
  split at same <;> cases same
  · exact .refused ‹_›
  · exact .silent (.inr rfl)

private theorem fresh_arrived {processor : Processor Cache Seal}
    (fits : heard processor contended header payload = true)
    (classified : api.dedup.classify processor.dedup header.key payload = (.fresh slot, dedup))
    (same : intakeFresh api
      (processor.reserve slot (requestMeta header.key payload channel) dedup) slot header payload
        nowUs reserved robot = (outcome, after)) :
    Arrived api processor contended header payload reserved channel outcome after := by
  have finished : ∀ {status error message}, answered
      (processor.reserve slot (requestMeta header.key payload channel) dedup)
      (finish api (processor.reserve slot (requestMeta header.key payload channel) dedup) slot
        status error message nowUs reserved .rx) = (outcome, after) →
      Arrived api processor contended header payload reserved channel outcome after := by
    intro status error message tried
    simp only [answered] at tried
    split at tried <;> cases tried
    · exact .answered fits classified ‹_›
    · exact .unanswered fits classified
  simp only [intakeFresh] at same
  split at same
  · exact finished same
  split at same
  · exact finished same
  split at same
  · exact finished same
  · cases same
    exact .handedOut fits classified

theorem arrived_of_intake {processor : Processor Cache Seal}
    (same : intake api processor contended header payload nowUs reserved channel =
      (outcome, after)) :
    Arrived api processor contended header payload reserved channel outcome after := by
  simp only [intake] at same
  split at same
  · cases same
    exact .dropped ‹_›
  rename_i usable
  have fits : heard processor contended header payload = true := by simpa using usable
  cases classified : api.dedup.classify processor.dedup
    (requestMeta header.key payload channel).key payload with
  | mk verdict dedup =>
    simp only [classified] at same
    cases verdict with
    | fresh slot =>
      dsimp only at same
      split at same
      · rename_i unset
        simp [heard_iff, unset] at fits
      · exact fresh_arrived fits classified same
    | duplicateComplete stored =>
      cases same
      exact .known fits classified (by simp) .replayed
    | duplicateInFlight =>
      cases same
      exact .known fits classified (by simp) (.silent (.inl rfl))
    | invalidArgument =>
      cases same
      exact .known fits classified (by simp) (.silent (.inr rfl))
    | conflict | evicted | capacityExhausted =>
      exact .known fits classified (by simp) (known_of_answered same)

end BallyOS.Command
