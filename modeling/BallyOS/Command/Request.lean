import BallyOS.Btp.Interface

/-! Which COMMAND_REQUEST the robot executes: the envelope and target checks of
`parse_request`, the shell text checks of `copy_shell_command`, and what is
answered when one of them fails. -/
namespace BallyOS.Command
open Btp

def kCommandRequestObjectId : UInt16 := 0x0001
def kShellActionId : UInt16 := 0x0001
def kShellActionVersion : UInt16 := 0x0001
def kPingActionId : UInt16 := 0x0002
def kPingActionVersion : UInt16 := 0x0001
def kRequestPrefixSize : Nat := 20
def kMaxShellCommandSize : Nat := 512
def kMaxLogicalRequestSize : Nat := kRequestPrefixSize + kMaxShellCommandSize

inductive ParseError
  | wrongType | wrongObject | invalidEnvelope | payloadTooShort | wrongTarget | invalidAction
  | invalidFlags | sizeMismatch | parametersTooLarge | unsupportedAction | invalidShellText
  | outputTooSmall
deriving Repr, DecidableEq

inductive Status
  | success | rejected | failed | timeout | cancelled | unsupported | busy
deriving Repr, DecidableEq

def Status.code : Status → UInt8
  | success => 0x00
  | rejected => 0x01
  | failed => 0x02
  | timeout => 0x03
  | cancelled => 0x04
  | unsupported => 0x05
  | busy => 0x06

inductive ErrorCode
  | none | malformedPayload | unknownObject | invalidArgument | notAuthorized | capacityExhausted
  | executionTimeout | internalError | unsupportedVersion | staleTargetBoot | requestConflict
deriving Repr, DecidableEq

def ErrorCode.code : ErrorCode → UInt16
  | none => 0x0000
  | malformedPayload => 0x0001
  | unknownObject => 0x0002
  | invalidArgument => 0x0003
  | notAuthorized => 0x0004
  | capacityExhausted => 0x0005
  | executionTimeout => 0x0006
  | internalError => 0x0007
  | unsupportedVersion => 0x0008
  | staleTargetBoot => 0x0009
  | requestConflict => 0x000A

/-- The bytes of an ASCII message text. -/
def text (message : String) : List UInt8 :=
  message.toList.map fun character => UInt8.ofNat character.toNat

def parseMessage : ParseError → String
  | .wrongTarget => "stale command target"
  | .unsupportedAction => "unsupported action"
  | .invalidAction => "invalid action"
  | .parametersTooLarge => "parameters too large"
  | .invalidShellText => "invalid shell command"
  | _ => "malformed command request"

def parseStatus (error : ParseError) : Status :=
  if error = .unsupportedAction then .unsupported else .rejected

def parseErrorCode : ParseError → ErrorCode
  | .wrongTarget => .staleTargetBoot
  | .unsupportedAction => .unsupportedVersion
  | .invalidAction | .parametersTooLarge | .invalidShellText | .outputTooSmall => .invalidArgument
  | _ => .malformedPayload

/-- The robot's own identity on the wire. -/
structure Identity where
  sourceId : UInt32
  bootId : UInt32
deriving Repr, DecidableEq

def parseRequest (api : Api Cache) (header : Header) (payload : List UInt8) (robot : Identity) :
    Except ParseError CommandRequest :=
  if header.type ≠ .command then .error .wrongType
  else if header.objectId ≠ kCommandRequestObjectId then .error .wrongObject
  else if header.flags ≠ 0 ∨ header.fragmentIndex ≠ 0 ∨ header.fragmentCount ≠ 1 ∨
      header.sourceId = 0 ∨ header.bootId = 0 then .error .invalidEnvelope
  else match api.decodeCommandRequest payload with
    | .error .payloadTooShort => .error .payloadTooShort
    | .error .reservedNotZero => .error .invalidFlags
    | .error .trailingBytes => .error .sizeMismatch
    | .error .lengthOverflow => .error .sizeMismatch
    | .error .countTooLarge => .error .parametersTooLarge
    | .error .zeroField => .error .invalidEnvelope
    | .ok command =>
      if command.targetSourceId ≠ robot.sourceId ∨ command.targetBootId ≠ robot.bootId then
        .error .wrongTarget
      else if command.parameters.length > kMaxShellCommandSize then .error .parametersTooLarge
      else .ok command

/-- A byte that may stand in one shell command: text, tabs and UTF-8, but no
line break and no other control character. -/
def shellByte (byte : UInt8) : Bool :=
  !(byte == 0 || byte == 13 || byte == 10 || byte == 0x7F || (byte < 0x20 && byte != 9))

/-- `copy_shell_command` into a buffer of the given capacity, which also holds
the terminator. -/
def copyShellCommand (request : CommandRequest) (outputCapacity : Nat) :
    Except ParseError (List UInt8) :=
  if request.actionId ≠ kShellActionId ∨ request.actionVersion ≠ kShellActionVersion then
    .error .unsupportedAction
  else if request.parameters.length = 0 ∨ request.parameters.length > kMaxShellCommandSize then
    .error .invalidShellText
  else if outputCapacity ≤ request.parameters.length then .error .outputTooSmall
  else if request.parameters.all shellByte then .ok request.parameters
  else .error .invalidShellText

end BallyOS.Command
