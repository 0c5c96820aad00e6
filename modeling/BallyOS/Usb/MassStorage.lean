import BallyOS.Library.Run

/-! Lending the SD card to a USB host. The storage driver says who has the card
mounted; the card's own flag is what the robot's file code asks, and the session
flag is what the hand-back asks. They change one after another, by driver calls
that can fail. -/
namespace BallyOS.Usb
open Library

inductive MountPoint
  | app
  | usb
deriving Repr, DecidableEq

/-- What the driver tells about a change of the mount point. -/
inductive StorageEvent
  | mountStart
  | mountFailed
  | mountComplete
  | other
deriving Repr, DecidableEq

/-- One call of `tinyusb_msc_set_storage_mount_point`: what it returns, whether
it moved the card, and the events it raised on the way. -/
structure MountAnswer where
  ok : Bool
  moved : Bool
  events : List StorageEvent := []
deriving Repr, DecidableEq

structure Storage where
  /-- A card is registered and its storage was created. -/
  ready : Bool := true
  /-- Whom the driver has mounted the card for. -/
  mountPoint : MountPoint := .app
  appHasAccess : Bool := true
  /-- The card's own flag. -/
  appMounted : Bool := true
  driverInstalled : Bool := false
  driverPersistent : Bool := false
  sessionActive : Bool := false
  hostAttached : Bool := false
  mountTransitionFailed : Bool := false
deriving Repr, DecidableEq

namespace Storage

def isActive (storage : Storage) : Bool :=
  storage.sessionActive || storage.driverInstalled && !storage.driverPersistent

def isExposed (storage : Storage) : Bool := storage.sessionActive && !storage.appHasAccess

def handleStorageEvent (storage : Storage) : StorageEvent → Storage
  | .mountStart => { storage with mountTransitionFailed := false }
  | .mountFailed => { storage with mountTransitionFailed := true }
  | .mountComplete => { storage with mountTransitionFailed := false }
  | .other => storage

def handleHostConnection (storage : Storage) (attached : Bool) : Storage :=
  { storage with hostAttached := attached }

/-- The driver's call, with the events its callback hands on meanwhile. -/
def setMountPoint (storage : Storage) (target : MountPoint) (answer : MountAnswer) :
    Bool × Storage :=
  let told := answer.events.foldl handleStorageEvent storage
  (answer.ok, if answer.moved then { told with mountPoint := target } else told)

/-- Reads the mount point back, when the driver answers. -/
def syncMountState (storage : Storage) (answered : Bool) : Bool × Storage :=
  if storage.ready ∧ answered then
    let appAccess : Bool := storage.mountPoint = .app
    (true, { storage with appHasAccess := appAccess, appMounted := appAccess })
  else (false, storage)

/-- What the driver and the card answer to one `expose`. -/
structure ExposeAnswers where
  synced : Bool := true
  openStream : Bool := false
  exposed : MountAnswer := ⟨true, true, [.mountStart, .mountComplete]⟩
  syncedAfter : Bool := true
  installed : Bool := true
  returned : MountAnswer := ⟨true, true, [.mountStart, .mountComplete]⟩
  syncedReturn : Bool := true
deriving Repr, DecidableEq

/-- The checks before anything is changed. -/
def exposeAllowed (storage : Storage) (answers : ExposeAnswers) : Bool × Storage :=
  if storage.ready = false ∨ storage.sessionActive then (false, storage)
  else
    let (synced, after) := storage.syncMountState answers.synced
    (synced && after.appHasAccess && !answers.openStream, after)

/-- The card goes to the USB side. -/
def exposeMount (storage : Storage) (answers : ExposeAnswers) : Bool × Storage :=
  let cleared := { storage with mountTransitionFailed := false }
  match cleared.setMountPoint .usb answers.exposed with
  | (false, after) => (false, after)
  | (true, after) =>
    if after.mountTransitionFailed then (false, after)
    else
      let (synced, told) := after.syncMountState answers.syncedAfter
      (synced && !told.appHasAccess, told)

/-- The USB device comes up, or the card comes back. -/
def exposeInstall (storage : Storage) (answers : ExposeAnswers) : Bool × Storage :=
  if storage.driverInstalled then (true, storage)
  else
    let detached := { storage with hostAttached := false }
    if answers.installed then
      (true, { detached with driverPersistent := false, driverInstalled := true })
    else
      let (_, back) := detached.setMountPoint .app answers.returned
      (false, (back.syncMountState answers.syncedReturn).2)

def exposeActivate (storage : Storage) : Storage := { storage with sessionActive := true }

def expose (storage : Storage) (answers : ExposeAnswers) : Bool × Storage :=
  match storage.exposeAllowed answers with
  | (false, after) => (false, after)
  | (true, allowed) =>
    match allowed.exposeMount answers with
    | (false, after) => (false, after)
    | (true, mounted) =>
      match mounted.exposeInstall answers with
      | (false, after) => (false, after)
      | (true, installed) => (true, installed.exposeActivate)

/-- A device that only the session needed goes down. -/
def uninstallDriver (storage : Storage) : Storage :=
  if storage.driverInstalled ∧ storage.driverPersistent = false then
    { storage with driverInstalled := false, hostAttached := false }
  else storage

@[simp] theorem uninstallDriver_mountPoint (storage : Storage) :
    storage.uninstallDriver.mountPoint = storage.mountPoint := by
  unfold uninstallDriver
  split <;> rfl

@[simp] theorem uninstallDriver_appMounted (storage : Storage) :
    storage.uninstallDriver.appMounted = storage.appMounted := by
  unfold uninstallDriver
  split <;> rfl

/-- The session ends whatever the driver answered. -/
def reclaim (storage : Storage) (answer : MountAnswer) (synced : Bool) : Bool × Storage :=
  if storage.sessionActive ∧ storage.ready then
    let back := ((storage.setMountPoint .app answer).2.syncMountState synced).2
    (back.appHasAccess, { back.uninstallDriver with sessionActive := false })
  else (false, storage)

/-- The tick while a session is active; button 2 takes the card back. -/
def process (storage : Storage) (reclaimPressed : Bool) (synced : Bool) (answer : MountAnswer)
    (syncedReturn : Bool) : Storage :=
  if storage.sessionActive ∧ storage.ready then
    let told := (storage.syncMountState synced).2
    if reclaimPressed then (told.reclaim answer syncedReturn).2 else told
  else storage

end Storage

/-- Reading the mount point back begins and ends no session. -/
theorem syncMountState_isActive (storage : Storage) (answered : Bool) :
    (storage.syncMountState answered).2.isActive = storage.isActive := by
  unfold Storage.syncMountState
  split <;> rfl

private theorem setMountPoint_isActive (storage : Storage) (target : MountPoint)
    (answer : MountAnswer) :
    (storage.setMountPoint target answer).2.isActive = storage.isActive := by
  have told : (answer.events.foldl Storage.handleStorageEvent storage).isActive =
      storage.isActive := by
    induction answer.events generalizing storage with
    | nil => rfl
    | cons event rest ih =>
      rw [List.foldl_cons, ih]
      cases event <;> rfl
  unfold Storage.setMountPoint
  dsimp only
  split
  · exact told
  · exact told

theorem exposeAllowed_isActive (storage : Storage) (answers : Storage.ExposeAnswers) :
    (storage.exposeAllowed answers).2.isActive = storage.isActive := by
  unfold Storage.exposeAllowed
  split
  · rfl
  · exact syncMountState_isActive storage answers.synced

theorem exposeMount_isActive (storage : Storage) (answers : Storage.ExposeAnswers) :
    (storage.exposeMount answers).2.isActive = storage.isActive := by
  have moved := setMountPoint_isActive { storage with mountTransitionFailed := false } .usb
    answers.exposed
  unfold Storage.exposeMount
  dsimp only
  split
  · rename_i failed
    rw [failed] at moved
    exact moved
  · rename_i went
    rw [went] at moved
    split
    · exact moved
    · exact (syncMountState_isActive _ _).trans moved

/-- Only a device that comes up now begins a session. -/
theorem exposeInstall_isActive {storage : Storage}
    (begins : ¬(storage.driverInstalled = false ∧ answers.installed = true)) :
    (storage.exposeInstall answers).2.isActive = storage.isActive := by
  unfold Storage.exposeInstall
  split
  · rfl
  · rename_i missing
    have down : answers.installed = false := by simpa [missing] using begins
    rw [down, if_neg Bool.false_ne_true]
    exact (syncMountState_isActive _ _).trans (setMountPoint_isActive _ _ _)

/-- An `expose` that fails begins no session. -/
theorem expose_failed {storage : Storage} (failed : (storage.expose answers).1 = false) :
    (storage.expose answers).2.isActive = storage.isActive := by
  have allowed := exposeAllowed_isActive storage answers
  unfold Storage.expose at *
  split
  · rename_i refused
    rw [refused] at allowed
    exact allowed
  · rename_i checked passed
    rw [passed] at allowed failed
    have mounted := exposeMount_isActive checked answers
    dsimp only at failed
    split
    · rename_i stayed
      rw [stayed] at mounted
      exact mounted.trans allowed
    · rename_i away went
      rw [went] at mounted failed
      have installed : ¬(away.driverInstalled = false ∧ answers.installed = true) →
          (away.exposeInstall answers).2.isActive = away.isActive := exposeInstall_isActive
      dsimp only at failed
      split
      · rename_i down
        rw [down] at installed
        refine (installed ?_).trans (mounted.trans allowed)
        rintro ⟨missing, up⟩
        simp [Storage.exposeInstall, missing, up] at down
      · rename_i up
        rw [up] at failed
        contradiction

theorem isActive_of_reclaim {storage : Storage}
    (active : (storage.reclaim answer synced).2.isActive = true) : storage.isActive = true := by
  unfold Storage.reclaim at active
  split at active
  · rename_i session
    simp [Storage.isActive, session.1]
  · exact active

theorem isActive_of_process {storage : Storage}
    (active : (storage.process reclaimPressed synced answer syncedReturn).isActive = true) :
    storage.isActive = true := by
  unfold Storage.process at active
  split at active
  · rename_i session
    simp [Storage.isActive, session.1]
  · exact active

end BallyOS.Usb
