import BallyOS.Ota.Attempts

/-! Whether SERVING means that the link is up. The TCP server is started and
stopped by the phase alone, and in SERVING a tick no longer looks at the flags. -/
namespace BallyOS.Ota
open Library

structure Link where
  updater : Updater := {}
  /-- The TCP server listens. -/
  running : Bool := false
  /-- A disconnect was received since the last got-IP event. -/
  down : Bool := false
  /-- The same, since the got-IP event that led to the current SERVING. -/
  lost : Bool := false

inductive LinkEvent
  | ota (event : Event)
  /-- `updateTcpServerLifecycle`, with what the server's start returns. -/
  | lifecycle (started : Bool)

namespace Link

def updateTcpServerLifecycle (link : Link) (started : Bool) : Link :=
  let wifiServing : Bool := link.updater.phase = .serving
  if wifiServing && !link.running then { link with running := started }
  else if !wifiServing && link.running then { link with running := false }
  else link

/-- The record of the disconnects, after an event that left the updater so. -/
def follow (link : Link) (after : Updater) : Event → Link
  | .gotIp _ => { link with
      updater := after
      down := false }
  | .disconnected _ => { link with
      updater := after
      down := true
      lost := true }
  | _ => { link with
      updater := after
      lost :=
        if link.updater.phase ≠ .serving ∧ after.phase = .serving then link.down else link.lost }

def step (tuning : OtaTuning) : Machine Link LinkEvent
  | link, .ota event =>
    (Ota.step tuning link.updater event).map fun after => link.follow after event
  | link, .lifecycle started => some (link.updateTcpServerLifecycle started)

/-- A tick leaves SERVING, and a lifecycle call the server, only to a link that
was not lost. -/
def Honest (link : Link) : LinkEvent → Prop
  | .ota (.tick _ _ _) => link.updater.phase = .serving → link.lost = false
  | .lifecycle _ => link.running = true → link.updater.phase = .serving ∧ link.lost = false
  | _ => True

/-- What a tick or a lifecycle call in this state relies on. -/
def Sound (link : Link) : Prop :=
  (link.updater.phase = .serving → link.lost = false) ∧
    (link.updater.phase = .connecting → link.updater.gotIp.isSome = true → link.down = false)

/-- No disconnect comes in SERVING, or under an attempt whose address waits for
the tick; and no attempt begins with an address that a disconnect followed. -/
def Lasting (link : Link) : LinkEvent → Prop
  | .ota (.disconnected attempt) => attempt ≤ link.updater.attempt →
      link.updater.phase ≠ .serving ∧
        (link.updater.phase = .connecting → link.updater.gotIp = none)
  | .ota (.tick pressed _ answers) => link.updater.connects pressed answers →
      link.updater.gotIp.isSome = true → link.down = false
  | _ => True

/-- A calm step keeps what is relied on. -/
theorem sound_follow {link : Link} {after : Updater} (sound : Sound link)
    (ebbs : Ebbs link.updater after) (quiet : link.follow after event = { link with
      updater := after
      lost := if link.updater.phase ≠ .serving ∧ after.phase = .serving then link.down
        else link.lost }) : Sound (link.follow after event) := by
  rw [quiet]
  constructor
  · intro serving
    dsimp only at serving ⊢
    by_cases before : link.updater.phase = .serving
    · simpa [before] using sound.1 before
    · obtain ⟨connecting, gotIp⟩ := (ebbs.serving serving).resolve_left before
      simpa [before, serving] using sound.2 connecting gotIp
  · intro connecting gotIp
    obtain ⟨here, same, _⟩ := ebbs.connecting connecting
    dsimp only at gotIp
    rw [same] at gotIp
    exact sound.2 here gotIp

private theorem sound_step_iff {link : Link} (sound : Sound link) :
    (∀ next, step tuning link event = some next → Sound next) ↔ Lasting link event := by
  cases event with
  | lifecycle started =>
    simp only [step, Option.some.injEq, forall_eq', Lasting, iff_true]
    unfold updateTcpServerLifecycle
    dsimp only
    split
    · exact sound
    · split
      · exact sound
      · exact sound
  | ota event =>
    have calmly : Calm link.updater event → (∀ after, link.follow after event = { link with
        updater := after
        lost := if link.updater.phase ≠ .serving ∧ after.phase = .serving then link.down
          else link.lost }) →
        ∀ next, step tuning link (.ota event) = some next → Sound next := by
      intro calm quiet next stepped
      obtain ⟨after, moved, rfl⟩ := Option.map_eq_some_iff.mp stepped
      exact sound_follow sound (ebbs_of_calm calm moved) (quiet after)
    cases event with
    | start | survey | cancel | scanDone | uploadStart | uploadEnd =>
      exact iff_of_true (calmly trivial fun _ => rfl) trivial
    | tick pressed now answers =>
      by_cases begins : link.updater.connects pressed answers
      · simp only [step, Ota.step, Option.map_some, Option.some.injEq, forall_eq', Lasting, begins,
          forall_const]
        rw [Updater.process_connects begins]
        simp [Sound, follow]
      · exact iff_of_true (calmly begins fun _ => rfl) fun connects => absurd connects begins
    | gotIp attempt =>
      refine iff_of_true (fun next stepped => ?_) trivial
      simp only [step, Ota.step, Option.map_eq_some_iff, Option.ite_none_right_eq_some,
        Option.some.injEq] at stepped
      obtain ⟨after, ⟨_, rfl⟩, rfl⟩ := stepped
      exact ⟨sound.1, fun _ _ => rfl⟩
    | disconnected attempt =>
      simp only [step, Ota.step, Lasting]
      split
      · rename_i within
        simp [Sound, follow, within]
      · rename_i beyond
        simp [beyond]

/-- What every tick and every lifecycle call from a state leave behind. -/
theorem honest_iff (tuning : OtaTuning) (link : Link) :
    (∀ event next, step tuning link event = some next → Honest next event) ↔ Sound link := by
  constructor
  · intro honest
    have ticked := honest (.ota (.tick false 0 {})) _ rfl
    have goesOn : link.updater.cancelsOn false = false := rfl
    constructor
    · intro serving
      simpa [Honest, follow, Updater.process, goesOn, serving] using ticked
    · intro connecting gotIp
      cases direct : link.updater.directMode <;>
        simpa [Honest, follow, Updater.process, Updater.processConnecting, goesOn, connecting,
          gotIp, direct] using ticked
  · intro sound event next stepped
    cases event with
    | lifecycle started =>
      cases stepped
      unfold updateTcpServerLifecycle
      dsimp only
      split
      · rename_i starts
        have serving : link.updater.phase = .serving := by simp_all
        exact fun _ => ⟨serving, sound.1 serving⟩
      · rename_i goesOn
        split
        · exact fun running => by contradiction
        · intro running
          have serving : link.updater.phase = .serving := by simp_all
          exact ⟨serving, sound.1 serving⟩
    | ota event =>
      cases event with
      | tick pressed now answers =>
        by_cases begins : link.updater.connects pressed answers
        · cases stepped
          intro serving
          dsimp only [follow] at serving
          rw [Updater.process_connects begins] at serving
          contradiction
        · simp only [step, Option.map_eq_some_iff] at stepped
          obtain ⟨after, moved, rfl⟩ := stepped
          have calm : Calm link.updater (.tick pressed now answers) := begins
          exact (sound_follow sound (ebbs_of_calm calm moved) rfl).1
      | _ => trivial

end Link

/-- In every state of a run, every tick leaves SERVING, and every lifecycle call
the TCP server, only to a link that is up, exactly when the links of the run last;
so do the ticks and the calls of such a run. -/
theorem serving_link_is_up_iff (tuning : OtaTuning) (events : List LinkEvent) :
    (Along (Link.step tuning) (fun link event => ∀ next, Link.step tuning link event = some next →
        ∀ later after, Link.step tuning next later = some after → Link.Honest after later)
        {} events ↔
      Along (Link.step tuning) Link.Lasting {} events) ∧
    (Along (Link.step tuning) Link.Lasting {} events →
      Along (Link.step tuning) (fun link event => ∀ next, Link.step tuning link event = some next →
        Link.Honest next event) {} events) := by
  have sound : Link.Sound {} := ⟨fun _ => rfl, fun _ _ => rfl⟩
  constructor
  · simp only [Link.honest_iff]
    exact along_keeps_iff (fun _ _ => trivial) (fun _ sound => Link.sound_step_iff sound) trivial
      sound events
  · refine along_of_invariant (fun held lasting stepped => ?_) (fun held next stepped => ?_) sound
    · exact (Link.sound_step_iff held).mpr lasting _ stepped
    · exact (Link.honest_iff tuning _).mpr held _ next stepped

/-- The robot connects and serves, and then the access point goes away. -/
def lostLink : List LinkEvent :=
  [.ota (.start true 0 inRange), .ota .scanDone, .ota (.tick false 3000 inRange),
    .ota (.gotIp 1), .ota (.tick false 4000 inRange), .lifecycle true, .ota (.disconnected 1)]

/-- The state in which the link was lost. -/
def cutOff : Link :=
  { updater :=
      { phase := .serving
        directMode := true
        disconnected := some 1
        candidates := inRange.stored
        config := inRange.stored[0]?.map Credential.staConfig
        nextScan := 5000
        connectDeadline := 13000
        attempt := 1 }
    running := true
    down := true
    lost := true }

/-- The tick after the loss stays in SERVING. -/
theorem lost_link_is_served : ¬∀ events, Along (Link.step {})
    (fun link event => ∀ next, Link.step {} link event = some next → Link.Honest next event)
    {} events := by
  intro every
  have ran : run (Link.step {}) {} lostLink = some cutOff := rfl
  have honest := along_at (every (lostLink ++ [.ota (.tick false 5000 inRange)])) ran
  have up : cutOff.lost = false := honest cutOff rfl rfl
  contradiction

end BallyOS.Ota
