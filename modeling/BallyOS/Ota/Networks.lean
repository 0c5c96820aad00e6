import BallyOS.Settings.File

/-! The Wi-Fi list on the card, a line `ssid,password` a network: what is read of it, and
how a network is added to it and removed. -/
namespace BallyOS.Ota
open Library Settings

def OTA_MAX_NETWORKS : Nat := 16
def OTA_SSID_MAX_LEN : Nat := 33
def OTA_PASS_MAX_LEN : Nat := 65

/-- The buffer a list is read into, with its NUL, and written from. -/
def kListBytes : Nat := OTA_MAX_NETWORKS * (OTA_SSID_MAX_LEN + OTA_PASS_MAX_LEN)

structure Credential where
  ssid : CString OTA_SSID_MAX_LEN
  password : CString OTA_PASS_MAX_LEN

/-- `snprintf` of a string into a buffer. -/
def printInto (size : Nat) (room : 0 < size) (text : Text) : CString size where
  text := (cString text).take (size - 1)
  fits := by
    rw [List.length_take]
    omega
  unended member := cString_unended text (List.mem_of_mem_take member)

/-- The network that a line names, if any. -/
def network (line : Text) : Option Credential :=
  if ',' ∈ line then
    let ssid := line.takeWhile (· ≠ ',')
    let password := (line.dropWhile (· ≠ ',')).drop 1
    if ssid = [] then none
    else some ⟨printInto OTA_SSID_MAX_LEN (by decide) ssid,
      printInto OTA_PASS_MAX_LEN (by decide) password⟩
  else none

/-- What the parser sees of a file: as much as its buffer holds, up to the first NUL. -/
def visible (content : Text) : Text := cString (content.take (kListBytes - 1))

def entries (text : Text) : List Credential := (tokens isLineEnd text).filterMap network

def networks (content : Text) : List Credential := (entries (visible content)).take OTA_MAX_NETWORKS

def parseFile (card : SDCard) (readable : Bool) : List Credential :=
  if card.mounted = false then []
  else
    match card.readFile (kListBytes - 1) readable with
    | some buffer => (entries (cString buffer)).take OTA_MAX_NETWORKS
    | none => []

/-- What a write comes to: the file did not open, an error came after `kept` bytes of the
data, or all is well. -/
inductive FileAnswer
  | refused
  | failed (kept : Nat)
  | done

def contentOf (card : SDCard) : Text := card.file.getD []

def appendFile (card : SDCard) (data : Text) (answer : FileAnswer) : Bool × SDCard :=
  if card.mounted = false then (false, card)
  else
    match answer with
    | .refused => (false, card)
    | .failed kept => (false, { card with file := some (contentOf card ++ data.take kept) })
    | .done => (true, { card with file := some (contentOf card ++ data) })

/-- The answer to a write that replaces the file. -/
def FileAnswer.rewriting (answer : FileAnswer) (card : SDCard) (data : Text) : WriteAnswer :=
  match answer with
  | .refused => { written := false, left := card.file }
  | .failed kept => { written := false, left := some (data.take kept) }
  | .done => { written := true }

def Credential.line (credential : Credential) : Text :=
  credential.ssid.text ++ ',' :: credential.password.text ++ ['\n']

/-- The network that an operator's SSID and password are, if they are taken. -/
def entered (ssid password : Text) : Option Credential :=
  if cString ssid = [] ∨ ',' ∈ cString ssid ∨ ',' ∈ cString password then none
  else if fits : (cString ssid).length < OTA_SSID_MAX_LEN ∧
      (cString password).length < OTA_PASS_MAX_LEN then
    some ⟨⟨cString ssid, fits.1, cString_unended ssid⟩,
      ⟨cString password, fits.2, cString_unended password⟩⟩
  else none

def addNetwork (card : SDCard) (ssid password : Text) (readable : Bool) (answer : FileAnswer) :
    Bool × SDCard :=
  match entered ssid password with
  | none => (false, card)
  | some credential =>
    if OTA_MAX_NETWORKS ≤ (parseFile card readable).length then (false, card)
    else if OTA_SSID_MAX_LEN + OTA_PASS_MAX_LEN + 2 ≤ credential.line.length then (false, card)
    else appendFile card credential.line answer

/-- The lines of the networks, as far as they fit in the buffer behind `offset`. -/
def fillBuffer : Nat → List Credential → Option Text
  | _, [] => some []
  | offset, credential :: rest =>
    if kListBytes - offset ≤ credential.line.length then none
    else (fillBuffer (offset + credential.line.length) rest).map (credential.line ++ ·)

def removeNetwork (card : SDCard) (index : UInt16) (readable : Bool) (answer : FileAnswer) :
    Bool × SDCard :=
  let scratch := parseFile card readable
  if scratch.length ≤ index.toNat then (false, card)
  else
    match fillBuffer 0 (scratch.eraseIdx index.toNat) with
    | none => (false, card)
    | some buffer => card.writeFile buffer (answer.rewriting card buffer)

/-- A call of the two, with what the card answers. -/
inductive ListCall
  | add (ssid password : Text) (readable : Bool) (answer : FileAnswer)
  | remove (index : UInt16) (readable : Bool) (answer : FileAnswer)

def ListCall.perform (card : SDCard) : ListCall → Bool × SDCard
  | .add ssid password readable answer => addNetwork card ssid password readable answer
  | .remove index readable answer => removeNetwork card index readable answer

end BallyOS.Ota
