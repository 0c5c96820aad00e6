import BallyOS.Library.Run
import BallyOS.Ota.Networks

/-! The Wi-Fi search of the updater: scan, connect to the visible candidates in
turn, serve. Its tick runs on one task; the driver's events arrive on another and
only raise flags for it. -/
namespace BallyOS.Ota
open Library Settings

/-- The most records that are read back of a scan. -/
def OTA_MAX_SCAN_RESULTS : Nat := 20

inductive Phase
  | idle
  | scanning
  | connecting
  | connectFailed
  | serving
deriving Repr, DecidableEq

structure OtaTuning where
  ledFailHold : UInt32 := 800
  connectTimeout : UInt32 := 10000
  retryScan : UInt32 := 5000
deriving Repr

/-- What the driver takes of a network: fields that `snprintf` fills and ends in a NUL. -/
structure StaConfig where
  ssid : CString 32
  password : CString 64

def Credential.staConfig (credential : Credential) : StaConfig where
  ssid := printInto 32 (by decide) credential.ssid.text
  password := printInto 64 (by decide) credential.password.text

/-- The time has come, by the sign of the wrapped difference. -/
def due (now deadline : UInt32) : Bool := (now - deadline).toNat < 2147483648

/-- What a tick has to tell. -/
inductive Report
  | notVisible
  | connectRefused
  | connecting
  | connected
  | serverFailed
  | disconnected
  | timedOut
deriving Repr, DecidableEq

/-- The two event flags hold the latest attempt an event they were raised by
belongs to. The code reads only whether they are raised. -/
structure Updater where
  phase : Phase := .idle
  directMode : Bool := false
  surveyOnly : Bool := false
  scanInFlight : Bool := false
  scanDone : Bool := false
  gotIp : Option Nat := none
  disconnected : Option Nat := none
  candidates : List Credential := []
  candidateIndex : Nat := 0
  nextScan : UInt32 := 0
  connectDeadline : UInt32 := 0
  retryAt : UInt32 := 0
  server : Bool := false
  flashing : Bool := false
  /-- What the driver was last given to connect to. -/
  config : Option StaConfig := none
  /-- How many times `esp_wifi_connect` has succeeded. -/
  attempt : Nat := 0

/-- What the card, the driver and the server answer to one call. -/
structure Answers where
  mounted : Bool := true
  stored : List Credential := []
  scanStarted : Bool := true
  /-- The SSIDs of the networks the scan found. -/
  records : List Text := []
  /-- The configuration was taken and the connection begun. -/
  connected : Bool := true
  serverStarted : Bool := true

namespace Updater

def failCandidate (updater : Updater) (tuning : OtaTuning) (now : UInt32) : Updater :=
  { updater with
    retryAt := now + tuning.ledFailHold
    phase := .connectFailed }

def tryNextCandidate (updater : Updater) (now : UInt32) : Updater :=
  { updater with
    candidateIndex := updater.candidateIndex + 1
    nextScan := now
    phase := .scanning }

def cancel (updater : Updater) : Updater :=
  if updater.flashing ∨ updater.phase = .idle then updater
  else { updater with
    server := false
    candidates := []
    candidateIndex := 0
    scanInFlight := false
    surveyOnly := false
    directMode := false
    phase := .idle }

/-- `start` and `startDirect`. -/
def beginScanning (updater : Updater) (tuning : OtaTuning) (direct : Bool) (now : UInt32)
    (answers : Answers) : Updater :=
  if updater.phase ≠ .idle then
    if direct = false ∧ updater.directMode then
      let upgraded := { updater with directMode := false }
      if updater.phase = .serving then
        if answers.serverStarted then { upgraded with server := true }
        else upgraded.failCandidate tuning now
      else upgraded
    else updater
  else if answers.mounted = false then updater
  else
    let loaded := { updater with
      candidates := answers.stored
      candidateIndex := 0 }
    if answers.stored = [] then loaded
    else { loaded with
      directMode := direct
      scanDone := false
      gotIp := none
      disconnected := none
      scanInFlight := answers.scanStarted
      nextScan := now + tuning.retryScan
      phase := .scanning }

def survey (updater : Updater) (tuning : OtaTuning) (now : UInt32) (answers : Answers) : Updater :=
  if updater.phase ≠ .idle then updater
  else { updater with
    scanDone := false
    surveyOnly := true
    scanInFlight := answers.scanStarted
    nextScan := now + tuning.retryScan
    phase := .scanning }

/-- The first candidate from `candidateIndex` on among the records that are read back. -/
def visibleIndex (updater : Updater) (records : List Text) : Nat :=
  updater.candidateIndex +
    (updater.candidates.drop updater.candidateIndex).findIdx fun candidate =>
      (records.take OTA_MAX_SCAN_RESULTS).contains candidate.ssid.text

def handleScanDone (updater : Updater) (tuning : OtaTuning) (now : UInt32) (answers : Answers) :
    Updater × Option Report :=
  let settled := { updater with scanInFlight := false }
  if updater.surveyOnly then
    ({ settled with
      surveyOnly := false
      phase := .idle }, none)
  else
    let index := updater.visibleIndex answers.records
    if updater.candidates.length ≤ index then
      ({ settled with
        candidateIndex := 0
        nextScan := now + tuning.retryScan }, some .notVisible)
    else
      let matched := { settled with
        candidateIndex := index
        config := updater.candidates[index]?.map Credential.staConfig }
      if answers.connected then
        ({ matched with
          attempt := updater.attempt + 1
          connectDeadline := now + tuning.connectTimeout
          phase := .connecting }, some .connecting)
      else (matched.failCandidate tuning now, some .connectRefused)

/-- The address decides before the disconnect, and the disconnect before the
deadline. -/
def processConnecting (updater : Updater) (tuning : OtaTuning) (now : UInt32)
    (answers : Answers) : Updater × Option Report :=
  if updater.gotIp.isSome then
    let taken := { updater with gotIp := none }
    if updater.directMode then ({ taken with phase := .serving }, some .connected)
    else if answers.serverStarted then
      ({ taken with
        server := true
        phase := .serving }, some .connected)
    else (taken.failCandidate tuning now, some .serverFailed)
  else if updater.disconnected.isSome then
    (failCandidate { updater with disconnected := none } tuning now, some .disconnected)
  else if due now updater.connectDeadline then
    (updater.failCandidate tuning now, some .timedOut)
  else (updater, none)

def processScanning (updater : Updater) (tuning : OtaTuning) (now : UInt32)
    (answers : Answers) : Updater × Option Report :=
  if updater.scanDone then handleScanDone { updater with scanDone := false } tuning now answers
  else if updater.scanInFlight = false ∧ due now updater.nextScan then
    ({ updater with
      scanInFlight := answers.scanStarted
      nextScan := if answers.scanStarted then updater.nextScan else now + tuning.retryScan }, none)
  else (updater, none)

/-- A pressed button ends a search that the operator began. -/
def cancelsOn (updater : Updater) (pressed : Bool) : Bool :=
  pressed && !updater.flashing && !updater.directMode

def process (updater : Updater) (tuning : OtaTuning) (pressed : Bool) (now : UInt32)
    (answers : Answers) : Updater × Option Report :=
  if updater.phase = .idle then (updater, none)
  else if updater.cancelsOn pressed then (updater.cancel, none)
  else
    match updater.phase with
    | .scanning => updater.processScanning tuning now answers
    | .connecting => updater.processConnecting tuning now answers
    | .connectFailed =>
      (if due now updater.retryAt then updater.tryNextCandidate now else updater, none)
    | .serving | .idle => (updater, none)

/-- One more event of an attempt. -/
def raise (flag : Option Nat) (attempt : Nat) : Option Nat := some (max attempt (flag.getD 0))

end Updater

inductive Event
  | start (direct : Bool) (now : UInt32) (answers : Answers)
  | survey (now : UInt32) (answers : Answers)
  | tick (pressed : Bool) (now : UInt32) (answers : Answers)
  | cancel
  | scanDone
  /-- An event of an attempt made so far; 0 stands for none of them. -/
  | gotIp (attempt : Nat)
  | disconnected (attempt : Nat)
  | uploadStart
  | uploadEnd

def step (tuning : OtaTuning) : Machine Updater Event
  | updater, .start direct now answers => some (updater.beginScanning tuning direct now answers)
  | updater, .survey now answers => some (updater.survey tuning now answers)
  | updater, .tick pressed now answers => some (updater.process tuning pressed now answers).1
  | updater, .cancel => some updater.cancel
  | updater, .scanDone => some { updater with scanDone := true }
  | updater, .gotIp attempt =>
    if attempt ≤ updater.attempt then
      some { updater with gotIp := Updater.raise updater.gotIp attempt }
    else none
  | updater, .disconnected attempt =>
    if attempt ≤ updater.attempt then
      some { updater with disconnected := Updater.raise updater.disconnected attempt }
    else none
  | updater, .uploadStart =>
    if updater.server ∧ updater.flashing = false then some { updater with flashing := true }
    else none
  | updater, .uploadEnd => some { updater with flashing := false }

/-- What a tick reports, when the event is one. -/
def reportOf (tuning : OtaTuning) (updater : Updater) : Event → Option Report
  | .tick pressed now answers => (updater.process tuning pressed now answers).2
  | _ => none

end BallyOS.Ota
