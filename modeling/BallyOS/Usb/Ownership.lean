import BallyOS.Usb.MassStorage

/-! Whether the three records of who owns the card agree. They do exactly as
long as no call leaves the card with the host on a failing exit. -/
namespace BallyOS.Usb
open Library

/-- The storage, and whether an `expose` that failed gave the card away. -/
structure Owned where
  storage : Storage := {}
  leaked : Bool := false

inductive OwnerEvent
  | expose (answers : Storage.ExposeAnswers)
  | reclaim (answer : MountAnswer) (synced : Bool)
  | process (reclaimPressed synced : Bool) (answer : MountAnswer) (syncedReturn : Bool)
  | storageEvent (event : StorageEvent)
  | hostConnection (attached : Bool)
  /-- The driver takes the card back from the host on its own. -/
  | ejected

def ownerStep : Machine Owned OwnerEvent
  | owned, .expose answers =>
    let (exposed, after) := owned.storage.expose answers
    let gaveAway : Bool :=
      exposed = false ∧ owned.storage.mountPoint = .app ∧ after.mountPoint ≠ .app
    some ⟨after, owned.leaked || gaveAway⟩
  | owned, .reclaim answer synced =>
    some { owned with storage := (owned.storage.reclaim answer synced).2 }
  | owned, .process reclaimPressed synced answer syncedReturn =>
    some { owned with
      storage := owned.storage.process reclaimPressed synced answer syncedReturn }
  | owned, .storageEvent event =>
    some { owned with storage := owned.storage.handleStorageEvent event }
  | owned, .hostConnection attached =>
    some { owned with storage := owned.storage.handleHostConnection attached }
  | owned, .ejected => some { owned with storage := { owned.storage with mountPoint := .app } }

/-- The robot uses the card only while it is its own, a failed `expose` gave
nothing away, and a card the host has can be taken back. -/
structure Agrees (owned : Owned) : Prop where
  flag : owned.storage.appMounted = true → owned.storage.mountPoint = .app
  kept : owned.leaked = false
  held : owned.storage.mountPoint = .usb → owned.storage.sessionActive = true

/-- Whether the last event told of a failed transition. -/
def MountAnswer.failed (answer : MountAnswer) : Bool :=
  (answer.events.foldl Storage.handleStorageEvent {}).mountTransitionFailed

/-- The driver calls that move the card to the host also confirm it, and those
that are to move it back do. -/
def Confirms (owned : Owned) : OwnerEvent → Prop
  | .expose answers => (owned.storage.exposeAllowed answers).1 = true →
      answers.exposed.moved = true →
        (answers.exposed.ok = true ∧ answers.exposed.failed = false ∧
          answers.syncedAfter = true) ∧
        (owned.storage.driverInstalled = false → answers.installed = false →
          answers.returned.moved = true)
  | .reclaim answer _ => owned.storage.ready = true → owned.storage.mountPoint = .usb →
      answer.moved = true
  | .process true _ answer _ => owned.storage.ready = true → owned.storage.mountPoint = .usb →
      answer.moved = true
  | _ => True

/-- The driver's events only touch the failure flag. -/
theorem foldl_handleStorageEvent (events : List StorageEvent) (storage : Storage) :
    events.foldl Storage.handleStorageEvent storage =
      { storage with mountTransitionFailed :=
          (events.foldl Storage.handleStorageEvent
            { mountTransitionFailed := storage.mountTransitionFailed }).mountTransitionFailed } := by
  induction events generalizing storage with
  | nil => rfl
  | cons event rest ih =>
    simp only [List.foldl_cons]
    rw [ih]
    cases event <;> rfl

/-- A call's effect: the card moves or stays, the flag follows the events. -/
theorem setMountPoint_spec (storage : Storage) (target : MountPoint) (answer : MountAnswer) :
    storage.setMountPoint target answer = (answer.ok, { storage with
      mountPoint := if answer.moved then target else storage.mountPoint
      mountTransitionFailed := (answer.events.foldl Storage.handleStorageEvent
        { mountTransitionFailed := storage.mountTransitionFailed }).mountTransitionFailed }) := by
  unfold Storage.setMountPoint
  dsimp only
  rw [foldl_handleStorageEvent]
  split <;> rfl

private theorem syncMountState_unanswered (storage : Storage) :
    storage.syncMountState false = (false, storage) := by
  simp [Storage.syncMountState]

private theorem syncMountState_answered {storage : Storage} (ready : storage.ready = true) :
    storage.syncMountState true = (true, { storage with
      appHasAccess := decide (storage.mountPoint = .app)
      appMounted := decide (storage.mountPoint = .app) }) := by
  simp [Storage.syncMountState, ready]

/-- Reading the mount point back moves nothing and tells the robot the truth. -/
theorem syncMountState_spec (storage : Storage) (answered : Bool) :
    (storage.syncMountState answered).2.mountPoint = storage.mountPoint ∧
      (storage.syncMountState answered).2.sessionActive = storage.sessionActive ∧
      (storage.syncMountState answered).2.ready = storage.ready ∧
      ((storage.syncMountState answered).2.appMounted = true →
        storage.appMounted = true ∨ storage.mountPoint = .app) := by
  unfold Storage.syncMountState
  split
  · exact ⟨rfl, rfl, rfl, fun told => Or.inr (by simpa using told)⟩
  · exact ⟨rfl, rfl, rfl, Or.inl⟩

private theorem exposeAllowed_true {storage : Storage}
    (allowed : (storage.exposeAllowed answers).1 = true) :
    storage.mountPoint = .app ∧ (storage.exposeAllowed answers).2.ready = true ∧
      (storage.exposeAllowed answers).2.mountPoint = .app ∧
      (storage.exposeAllowed answers).2.sessionActive = false ∧
      (storage.exposeAllowed answers).2.appMounted = true ∧
      (storage.exposeAllowed answers).2.driverInstalled = storage.driverInstalled := by
  unfold Storage.exposeAllowed at *
  split at allowed
  · contradiction
  · rename_i closed
    simp only [not_or, Bool.not_eq_false, Bool.not_eq_true] at closed
    rw [if_neg (by simp [closed])]
    cases answered : answers.synced with
    | false =>
      rw [answered, syncMountState_unanswered] at allowed
      simp at allowed
    | true =>
      rw [answered, syncMountState_answered closed.1] at allowed
      rw [syncMountState_answered closed.1]
      simp only [Bool.true_and, Bool.and_eq_true, decide_eq_true_eq] at allowed
      simp [closed, allowed.1]

/-- A check that fails moved nothing, and told the robot at most the truth. -/
theorem exposeAllowed_spec {storage : Storage} (answers : Storage.ExposeAnswers)
    (flag : storage.appMounted = true → storage.mountPoint = .app) :
    (storage.exposeAllowed answers).2.mountPoint = storage.mountPoint ∧
      (storage.exposeAllowed answers).2.sessionActive = storage.sessionActive ∧
      ((storage.exposeAllowed answers).2.appMounted = true → storage.mountPoint = .app) := by
  unfold Storage.exposeAllowed
  split
  · exact ⟨rfl, rfl, flag⟩
  · obtain ⟨mount, session, _, told⟩ := syncMountState_spec storage answers.synced
    exact ⟨mount, session, fun mounted => (told mounted).elim flag id⟩

/-- A card that does not move is still the robot's, and `expose` fails. -/
theorem exposeMount_stays {storage : Storage} (ready : storage.ready = true)
    (home : storage.mountPoint = .app) (stays : answers.exposed.moved = false) :
    (storage.exposeMount answers).1 = false ∧
      (storage.exposeMount answers).2.mountPoint = .app := by
  unfold Storage.exposeMount
  dsimp only
  rw [setMountPoint_spec]
  simp only [stays, home, Bool.false_eq_true, if_false]
  cases answers.exposed.ok with
  | false => exact ⟨rfl, rfl⟩
  | true =>
    dsimp only
    split
    · exact ⟨rfl, rfl⟩
    · cases answers.syncedAfter with
      | false => simp [syncMountState_unanswered]
      | true => simp [Storage.syncMountState, ready]

/-- A card that moves is the host's. `expose` goes on exactly when the driver
confirms it, and only then is the robot's flag cleared. -/
theorem exposeMount_moves {storage : Storage} (ready : storage.ready = true)
    (moves : answers.exposed.moved = true) :
    (storage.exposeMount answers).2.mountPoint = .usb ∧
      (storage.exposeMount answers).2.sessionActive = storage.sessionActive ∧
      (storage.exposeMount answers).2.ready = true ∧
      (storage.exposeMount answers).2.driverInstalled = storage.driverInstalled ∧
      ((storage.exposeMount answers).1 = true ↔ answers.exposed.ok = true ∧
        answers.exposed.failed = false ∧ answers.syncedAfter = true) ∧
      ((storage.exposeMount answers).1 = true →
        (storage.exposeMount answers).2.appMounted = false) := by
  unfold Storage.exposeMount MountAnswer.failed
  dsimp only
  rw [setMountPoint_spec]
  simp only [moves, if_true]
  cases answers.exposed.ok with
  | false => simp [ready]
  | true =>
    dsimp only
    split
    · rename_i failed
      simp [failed, ready]
    · rename_i sound
      cases answers.syncedAfter with
      | false => simp [syncMountState_unanswered, ready]
      | true => simp [Storage.syncMountState, ready, sound]

/-- A device that does not come up gives the card back, if the driver moves it. -/
theorem exposeInstall_spec {storage : Storage} (answers : Storage.ExposeAnswers)
    (away : storage.mountPoint = .usb) (cleared : storage.appMounted = false) :
    ((storage.exposeInstall answers).1 = true ↔
      storage.driverInstalled = true ∨ answers.installed = true) ∧
    ((storage.exposeInstall answers).1 = true →
      (storage.exposeInstall answers).2.mountPoint = .usb ∧
      (storage.exposeInstall answers).2.appMounted = false) ∧
    ((storage.exposeInstall answers).1 = false →
      (storage.exposeInstall answers).2.sessionActive = storage.sessionActive ∧
      ((storage.exposeInstall answers).2.mountPoint = .app ↔ answers.returned.moved = true) ∧
      ((storage.exposeInstall answers).2.appMounted = true →
        (storage.exposeInstall answers).2.mountPoint = .app)) := by
  unfold Storage.exposeInstall
  split
  · rename_i installed
    simp [installed, away, cleared]
  · rename_i missing
    dsimp only
    split
    · rename_i up
      simp [up, away, cleared]
    · rename_i down
      rw [setMountPoint_spec]
      dsimp only
      obtain ⟨mount, session, _, told⟩ := syncMountState_spec ({ storage with
        hostAttached := false
        mountPoint := if answers.returned.moved then .app else storage.mountPoint
        mountTransitionFailed := (answers.returned.events.foldl Storage.handleStorageEvent
          { mountTransitionFailed := storage.mountTransitionFailed }).mountTransitionFailed })
        answers.syncedReturn
      refine ⟨by simp [missing, down], fun never => by simp at never, fun _ => ⟨session, ?_, ?_⟩⟩
      · rw [mount]
        cases answers.returned.moved <;> simp [away]
      · rw [mount]
        intro mounted
        exact (told mounted).resolve_left (by simp [cleared])

/-- The ghost entry for an `expose` with a given end. -/
private theorem agrees_expose_iff (agrees : Agrees owned)
    (ended : owned.storage.expose answers = (exposed, after)) :
    (∀ next, ownerStep owned (.expose answers) = some next → Agrees next) ↔
      (after.appMounted = true → after.mountPoint = .app) ∧
      (exposed = false → owned.storage.mountPoint = .app → after.mountPoint = .app) ∧
      (after.mountPoint = .usb → after.sessionActive = true) := by
  simp only [ownerStep, ended, Option.some.injEq, forall_eq']
  constructor
  · intro next
    refine ⟨next.flag, fun failed home => ?_, next.held⟩
    have kept := next.kept
    simp only [agrees.kept, Bool.false_or, decide_eq_false_iff_not] at kept
    exact Classical.byContradiction fun away => kept ⟨failed, home, away⟩
  · rintro ⟨flag, kept, held⟩
    refine ⟨flag, ?_, held⟩
    simp only [agrees.kept, Bool.false_or, decide_eq_false_iff_not]
    exact fun ⟨failed, home, away⟩ => away (kept failed home)

/-- An `expose` keeps the records in agreement exactly when the driver confirms
what it moved. -/
theorem expose_agrees_iff (agrees : Agrees owned) :
    (∀ next, ownerStep owned (.expose answers) = some next → Agrees next) ↔
      Confirms owned (.expose answers) := by
  obtain ⟨storage, leaked⟩ := owned
  have flag : storage.appMounted = true → storage.mountPoint = .app := agrees.flag
  rcases checked : storage.exposeAllowed answers with ⟨_ | _, allowed⟩
  · have ended : storage.expose answers = (false, allowed) := by simp [Storage.expose, checked]
    obtain ⟨mount, session, told⟩ := exposeAllowed_spec answers flag
    rw [checked] at mount session told
    rw [agrees_expose_iff agrees ended]
    dsimp only at mount session told
    simp only [Confirms, checked, Bool.false_eq_true, false_implies, iff_true, mount, session]
    exact ⟨told, fun _ home => home, agrees.held⟩
  · obtain ⟨home, ready, here, ended, _, driver⟩ := exposeAllowed_true (by rw [checked])
    rw [checked] at ready here ended driver
    dsimp only at ready here ended driver
    simp only [Confirms, checked, forall_const]
    rcases mounting : allowed.exposeMount answers with ⟨went, mounted⟩
    cases moves : answers.exposed.moved with
    | false =>
      obtain ⟨failed, stayed⟩ := exposeMount_stays ready here moves
      rw [mounting] at failed stayed
      dsimp only at failed stayed
      subst failed
      have expose : storage.expose answers = (false, mounted) := by
        simp [Storage.expose, checked, mounting]
      rw [agrees_expose_iff agrees expose]
      simp [stayed]
    | true =>
      obtain ⟨away, session, _, device, confirmed, cleared⟩ := exposeMount_moves ready moves
      rw [mounting] at away session device confirmed cleared
      dsimp only at away session device confirmed cleared
      cases went with
      | false =>
        have expose : storage.expose answers = (false, mounted) := by
          simp [Storage.expose, checked, mounting]
        rw [agrees_expose_iff agrees expose, ← confirmed]
        simp [away, session, ended]
      | true =>
        rcases installing : mounted.exposeInstall answers with ⟨up, after⟩
        obtain ⟨device', on, off⟩ := exposeInstall_spec answers away (cleared rfl)
        rw [installing] at device' on off
        dsimp only at device' on off
        cases up with
        | true =>
          have expose : storage.expose answers = (true, after.exposeActivate) := by
            simp [Storage.expose, checked, mounting, installing]
          rw [agrees_expose_iff agrees expose, ← confirmed]
          obtain ⟨gone, clear⟩ := on rfl
          simp only [Storage.exposeActivate, gone, clear]
          refine ⟨fun _ _ => ⟨trivial, fun missing down => ?_⟩, fun _ => by simp⟩
          rw [← driver, ← device] at missing
          exact absurd (device'.mp rfl) (by simp [missing, down])
        | false =>
          have expose : storage.expose answers = (false, after) := by
            simp [Storage.expose, checked, mounting, installing]
          rw [agrees_expose_iff agrees expose, ← confirmed]
          obtain ⟨session', returned, told⟩ := off rfl
          have down : mounted.driverInstalled = false ∧ answers.installed = false := by
            simpa using device'
          have missing : storage.driverInstalled = false := by rw [← driver, ← device, down.1]
          constructor
          · rintro ⟨_, kept, _⟩ _
            exact ⟨rfl, fun _ _ => returned.mp (kept rfl home)⟩
          · intro moved
            have back := returned.mpr ((moved rfl).2 missing down.2)
            exact ⟨told, fun _ _ => back, fun gone => by simp [back] at gone⟩

private theorem agrees_sync (agrees : Agrees owned) (answered : Bool) :
    Agrees { owned with storage := (owned.storage.syncMountState answered).2 } := by
  obtain ⟨mount, session, _, told⟩ := syncMountState_spec owned.storage answered
  refine ⟨fun mounted => ?_, agrees.kept, fun away => ?_⟩
  · rw [mount]
    exact (told mounted).elim agrees.flag id
  · rw [session]
    exact agrees.held (mount ▸ away)

private theorem reclaim_spec {storage : Storage} (answer : MountAnswer) (synced : Bool)
    (active : storage.sessionActive = true) (ready : storage.ready = true) :
    (storage.reclaim answer synced).2.mountPoint =
        (if answer.moved then .app else storage.mountPoint) ∧
      (storage.reclaim answer synced).2.sessionActive = false ∧
      ((storage.reclaim answer synced).2.appMounted = true → storage.appMounted = true ∨
        (storage.reclaim answer synced).2.mountPoint = .app) := by
  unfold Storage.reclaim
  rw [if_pos ⟨active, ready⟩, setMountPoint_spec]
  obtain ⟨mount, _, _, told⟩ := syncMountState_spec ({ storage with
    mountPoint := if answer.moved then .app else storage.mountPoint
    mountTransitionFailed := (answer.events.foldl Storage.handleStorageEvent
      { mountTransitionFailed := storage.mountTransitionFailed }).mountTransitionFailed }) synced
  simp only [Storage.uninstallDriver_mountPoint, Storage.uninstallDriver_appMounted, mount]
  exact ⟨trivial, trivial, told⟩

/-- Taking the card back keeps the records in agreement exactly when the card
comes. -/
theorem agrees_reclaim_iff (agrees : Agrees owned) (answer : MountAnswer) (synced : Bool) :
    Agrees { owned with storage := (owned.storage.reclaim answer synced).2 } ↔
      (owned.storage.ready = true → owned.storage.mountPoint = .usb → answer.moved = true) := by
  by_cases session : owned.storage.sessionActive = true ∧ owned.storage.ready = true
  · obtain ⟨mount, ended, told⟩ := reclaim_spec answer synced session.1 session.2
    constructor
    · intro after _ away
      have home := after.held
      rw [mount, ended, away] at home
      simpa using home
    · intro moves
      have home : (owned.storage.reclaim answer synced).2.mountPoint = .app := by
        cases here : owned.storage.mountPoint with
        | app => simp [mount, here]
        | usb => simp [mount, moves session.2 here]
      exact ⟨fun _ => home, agrees.kept, fun away => by simp [home] at away⟩
  · have same : (owned.storage.reclaim answer synced).2 = owned.storage := by
      unfold Storage.reclaim
      rw [if_neg session]
    rw [same]
    refine ⟨fun _ ready away => ?_, fun _ => agrees⟩
    exact absurd ⟨agrees.held away, ready⟩ session

/-- Each step from agreement keeps it exactly when the driver confirms. -/
theorem agrees_step_iff (agrees : Agrees owned) :
    (∀ next, ownerStep owned event = some next → Agrees next) ↔ Confirms owned event := by
  cases event with
  | expose answers => exact expose_agrees_iff agrees
  | reclaim answer synced =>
    simp only [ownerStep, Option.some.injEq, forall_eq']
    exact agrees_reclaim_iff agrees answer synced
  | process reclaimPressed synced answer syncedReturn =>
    simp only [ownerStep, Option.some.injEq, forall_eq', Storage.process]
    have told := agrees_sync agrees synced
    obtain ⟨mount, _, ready, _⟩ := syncMountState_spec owned.storage synced
    cases reclaimPressed with
    | false =>
      simp only [Confirms, iff_true]
      split
      · exact told
      · exact agrees
    | true =>
      split
      · have iff := agrees_reclaim_iff told answer syncedReturn
        simpa only [mount, ready, Confirms, if_true] using iff
      · rename_i closed
        refine ⟨fun _ ready away => ?_, fun _ => agrees⟩
        exact absurd ⟨agrees.held away, ready⟩ closed
  | storageEvent event =>
    simp only [ownerStep, Option.some.injEq, forall_eq', Confirms, iff_true]
    cases event <;> exact ⟨agrees.flag, agrees.kept, agrees.held⟩
  | hostConnection attached =>
    simp only [ownerStep, Option.some.injEq, forall_eq', Confirms, iff_true]
    exact ⟨agrees.flag, agrees.kept, agrees.held⟩
  | ejected =>
    simp only [ownerStep, Option.some.injEq, forall_eq', Confirms, iff_true]
    exact ⟨fun _ => rfl, agrees.kept, fun away => by simp at away⟩

/-- The card as `begin` leaves it, with the serial link's device up or not. -/
def Owned.start (ready persistent : Bool) : Owned :=
  { storage := { ready, driverInstalled := persistent, driverPersistent := persistent } }

/-- The records agree in every state of a run exactly when, at every step, the
driver confirms what it moved to the host and moves back what it is asked to. -/
theorem ownership_agrees_iff (ready persistent : Bool) (events : List OwnerEvent) :
    Along ownerStep (fun owned event => ∀ next, ownerStep owned event = some next → Agrees next)
        (Owned.start ready persistent) events ↔
      Along ownerStep Confirms (Owned.start ready persistent) events := by
  have first : Agrees (Owned.start ready persistent) :=
    ⟨fun _ => rfl, rfl, fun away => by simp [Owned.start] at away⟩
  exact along_keeps_iff (fun _ _ => trivial) (fun _ agrees => agrees_step_iff agrees) trivial
    first events

/-- The card moves to the host, and reading the mount point back fails. -/
def unconfirmedExpose : List OwnerEvent := [.expose { syncedAfter := false }]

/-- `expose` fails, yet the host has the card, the robot's flag is still set and
there is no session to end. -/
theorem failed_expose_gives_card_away : ¬∀ events owned,
    run ownerStep (Owned.start true false) events = some owned → Agrees owned := by
  intro every
  have agrees := every unconfirmedExpose _ rfl
  exact absurd agrees.kept (by decide)

end BallyOS.Usb
