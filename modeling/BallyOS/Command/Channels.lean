import BallyOS.Btp.Interface

/-! Which two ends a message is between and which key goes with them: the
channel table, the sealing functions over the key store, and what each link
opens its requests with and seals its own replies with. The cipher itself is a
parameter. -/
namespace BallyOS.Command
open Btp

/-- Which key opens a channel. -/
inductive KeyKind
  | none | endpoint | link
deriving Repr, DecidableEq

def keyOfChannel : Channel → KeyKind
  | .aConsole => .none
  | .bEndpoint => .endpoint
  | .cLink => .link

inductive Vantage
  | console | robot
deriving Repr, DecidableEq

/-- A peer that is not the dongle is at the other end of the endpoint channel. -/
def channelOfPeer (self : Vantage) (peerSourceId dongleSourceId : UInt32) : Channel :=
  if peerSourceId = dongleSourceId then
    match self with
    | .robot => .cLink
    | .console => .aConsole
  else .bEndpoint

/-- What the links use of the library: the flags of a sealed frame, the cipher,
and the two CONTROL objects that are answered by peer. -/
structure Suite (Key : Type) where
  sealedFlags : UInt16
  encrypted : UInt16 → Bool
  aesGcm : UInt16 → Bool
  sealAesGcm : Key → Header → List UInt8 → Option (List UInt8)
  openAesGcm : Key → Header → List UInt8 → Option (List UInt8)
  kSubscribe : UInt16
  kUnsubscribe : UInt16

structure KeyStore (Key : Type) where
  loaded : Bool
  keyL : Key
  keyE : Key
deriving Repr, DecidableEq

def kTagSize : Nat := 16

variable {Key : Type} (suite : Suite Key)

/-- Sealing with a key of the configured store; without one, nothing. -/
def sealAs (key : KeyStore Key → Key) (store : Option (KeyStore Key)) (header : Header)
    (plaintext : List UInt8) : Option (List UInt8) :=
  match store with
  | none => none
  | some store => if store.loaded then suite.sealAesGcm (key store) header plaintext else none

/-- Opening refuses a frame that is not sealed, or sealed with another cipher. -/
def openAs (key : KeyStore Key → Key) (store : Option (KeyStore Key)) (header : Header)
    (ciphertext : List UInt8) : Option (List UInt8) :=
  match store with
  | none => none
  | some store =>
    if store.loaded && suite.encrypted header.flags && suite.aesGcm header.flags then
      suite.openAesGcm (key store) header ciphertext
    else none

def radioSeal (store : Option (KeyStore Key)) (header : Header) (plaintext : List UInt8) :
    Option (List UInt8) :=
  sealAs suite KeyStore.keyL store header plaintext

def radioOpen (store : Option (KeyStore Key)) (header : Header) (ciphertext : List UInt8) :
    Option (List UInt8) :=
  openAs suite KeyStore.keyL store header ciphertext

def radioSealE (store : Option (KeyStore Key)) (header : Header) (plaintext : List UInt8) :
    Option (List UInt8) :=
  sealAs suite KeyStore.keyE store header plaintext

def radioOpenE (store : Option (KeyStore Key)) (header : Header) (ciphertext : List UInt8) :
    Option (List UInt8) :=
  openAs suite KeyStore.keyE store header ciphertext

/-- The two sealing functions the firmware passes around. -/
inductive SealFn
  | radioSeal | radioSealE
deriving Repr, DecidableEq

def SealFn.call : SealFn → Option (KeyStore Key) → Header → List UInt8 → Option (List UInt8)
  | .radioSeal => BallyOS.Command.radioSeal suite
  | .radioSealE => BallyOS.Command.radioSealE suite

/-- The sealing function that goes with a channel. -/
def sealOfChannel : Channel → Option SealFn
  | .aConsole => none
  | .bEndpoint => some .radioSealE
  | .cLink => some .radioSeal

/-- Sealing and opening under a kind of key. -/
def sealUnder : KeyKind → Option (KeyStore Key) → Header → List UInt8 → Option (List UInt8)
  | .none => fun _ _ _ => none
  | .endpoint => radioSealE suite
  | .link => radioSeal suite

def openUnder : KeyKind → Option (KeyStore Key) → Header → List UInt8 → Option (List UInt8)
  | .none => fun _ _ _ => none
  | .endpoint => radioOpenE suite
  | .link => radioOpen suite

/-- COMMAND, TERMINAL and the subscription requests are classified by peer;
everything else a radio peer sends is the dongle's. -/
def classifyChannel (header : Header) (dongleSourceId : UInt32) : Channel :=
  let classifyByPeer := header.type = .command ∨ header.type = .terminal ∨
    header.type = .control ∧
      (header.objectId = suite.kSubscribe ∨ header.objectId = suite.kUnsubscribe)
  if classifyByPeer then channelOfPeer .robot header.sourceId dongleSourceId else .cLink

def protocolOpen (store : Option (KeyStore Key)) (dongleSourceId : UInt32) (header : Header)
    (ciphertext : List UInt8) : Option (List UInt8) :=
  if ciphertext.length < kTagSize then none
  else if classifyChannel suite header dongleSourceId = .bEndpoint then
    radioOpenE suite store header ciphertext
  else radioOpen suite store header ciphertext

/-- How a link's node opens what it received; the serial link has no key. -/
def linkOpen (store : Option (KeyStore Key)) (dongleSourceId : UInt32) (link : Link)
    (header : Header) (ciphertext : List UInt8) : Option (List UInt8) :=
  match link with
  | .espNow => protocolOpen suite store dongleSourceId header ciphertext
  | .tcp | .ble => radioOpenE suite store header ciphertext
  | .serial => some ciphertext

/-- What a link's node seals with unless told otherwise. -/
def linkSeal : Link → Option SealFn
  | .espNow => some .radioSeal
  | .tcp | .ble => some .radioSealE
  | .serial => none

/-- `reply_seal`: only the radio link picks by request. -/
def replySeal (dongleSourceId : UInt32) (link : Link) (requestHeader : Header) : Option SealFn :=
  match link with
  | .espNow =>
    if classifyChannel suite requestHeader dongleSourceId = .bEndpoint then some .radioSealE
    else none
  | .tcp | .ble | .serial => none

/-- The seal of a node's automatic reply. -/
def automaticSeal (dongleSourceId : UInt32) (link : Link) (requestHeader : Header) :
    Option SealFn :=
  (replySeal suite dongleSourceId link requestHeader).or (linkSeal link)

/-- The channel a link's receive task passes to `intake`. -/
def requestChannel (dongleSourceId : UInt32) (link : Link) (header : Header) : Channel :=
  match link with
  | .espNow => classifyChannel suite header dongleSourceId
  | .tcp | .ble | .serial => .bEndpoint

variable {suite}

private theorem classifyChannel_ne_console (header : Header) (dongleSourceId : UInt32) :
    classifyChannel suite header dongleSourceId ≠ .aConsole := by
  unfold classifyChannel channelOfPeer
  dsimp only
  split
  · split <;> simp
  · simp

theorem requestChannel_ne_console (dongleSourceId : UInt32) (link : Link) (header : Header) :
    requestChannel suite dongleSourceId link header ≠ .aConsole := by
  cases link with
  | espNow => exact classifyChannel_ne_console header dongleSourceId
  | tcp | ble | serial => simp [requestChannel]

/-- A sealed link opens a request under the key of the channel it passes on. -/
theorem openUnder_of_linkOpen (sealed : link ≠ .serial)
    (opened : linkOpen suite store dongleSourceId link header ciphertext = some plaintext) :
    openUnder suite (keyOfChannel (requestChannel suite dongleSourceId link header)) store header
      ciphertext = some plaintext := by
  cases link with
  | serial => exact absurd rfl sealed
  | tcp | ble => exact opened
  | espNow =>
    simp only [linkOpen, protocolOpen] at opened
    split at opened
    · cases opened
    split at opened
    · rename_i endpoint
      simpa [requestChannel, endpoint, keyOfChannel, openUnder] using opened
    · rename_i other
      cases channel : classifyChannel suite header dongleSourceId with
      | aConsole => exact absurd channel (classifyChannel_ne_console header dongleSourceId)
      | bEndpoint => exact absurd channel other
      | cLink => simpa [requestChannel, channel, keyOfChannel, openUnder] using opened

/-- The sealing function of a channel seals under the channel's key. -/
theorem sealOfChannel_call (picked : sealOfChannel channel = some sealFn) :
    sealFn.call suite = sealUnder suite (keyOfChannel channel) := by
  cases channel <;> cases picked <;> rfl

/-- An automatic reply is sealed by the function of the channel its request came on. -/
theorem automaticSeal_agrees (sealed : link ≠ .serial) (header : Header) :
    automaticSeal suite dongleSourceId link header =
      sealOfChannel (requestChannel suite dongleSourceId link header) := by
  cases link with
  | serial => exact absurd rfl sealed
  | tcp | ble => rfl
  | espNow =>
    cases channel : classifyChannel suite header dongleSourceId with
    | aConsole => exact absurd channel (classifyChannel_ne_console header dongleSourceId)
    | bEndpoint => simp [automaticSeal, replySeal, channel, requestChannel, sealOfChannel]
    | cLink =>
      simp [automaticSeal, replySeal, channel, linkSeal, requestChannel, sealOfChannel]

end BallyOS.Command
