import BallyOS.Library.Tokens
import BallyOS.Settings.Table

/-! The settings file: what `save` writes to the card and what `load` makes of it. -/
namespace BallyOS.Settings
open Library

/-- The card, and the settings file on it. -/
structure SDCard where
  mounted : Bool := false
  file : Option Text := none

/-- What a write comes to: whether all of it was written, and what is left of the
file when it was not. -/
structure WriteAnswer where
  written : Bool
  left : Option Text := none

def SDCard.writeFile (card : SDCard) (data : Text) (answer : WriteAnswer) : Bool × SDCard :=
  (answer.written, { card with file := if answer.written then some data else answer.left })

def SDCard.readFile (card : SDCard) (capacity : Nat) (readable : Bool) : Option Text :=
  if readable then card.file.map (List.take capacity) else none

def ROBOT_SETTINGS_FILE_MAX_BYTES : Nat := 8192

def kMaxModuleNameLength : Nat := 32

structure RobotSettings where
  data : SettingsData := initial
  saveRevision : UInt32 := 0

/-- The lines of the rows, each module under its heading. -/
def saveRows (data : SettingsData) : Text → List (Fin kTableCount) → Text
  | _, [] => []
  | currentModule, i :: rest =>
    (if currentModule ≠ (row i).module then
      (if i.val ≠ 0 then ['\n'] else []) ++ ('[' :: (row i).module ++ [']']) ++ ['\n']
    else []) ++
    ((row i).key ++ '=' :: formatEntry (row i).type (data i)) ++ '\n' ::
      saveRows data (row i).module rest

def saveText (data : SettingsData) : Text := saveRows data [] (List.finRange kTableCount)

def save (settings : RobotSettings) (card : SDCard) (answer : WriteAnswer) :
    Bool × RobotSettings × SDCard :=
  if card.mounted = false then (false, settings, card)
  else
    let (written, card) := card.writeFile (saveText settings.data) answer
    (written,
      if written then { settings with saveRevision := settings.saveRevision + 1 } else settings,
      card)

structure ParseState where
  currentModule : Text := []
  data : SettingsData
  skippedLines : UInt16 := 0

def ParseState.skip (state : ParseState) : ParseState :=
  { state with skippedLines := state.skippedLines + 1 }

/-- A line `key=value`. -/
def parseEntry (validGpio : Int → Bool) (state : ParseState) (key value : Text) : ParseState :=
  match find state.currentModule key with
  | some i =>
    match parseInto validGpio (row i).type value with
    | some parsed => { state with data := Function.update state.data i parsed }
    | none => state.skip
  | none => state.skip

def parseLine (validGpio : Int → Bool) (state : ParseState) (line : Text) : ParseState :=
  match line.dropWhile fun c => c = ' ' || c = '\t' with
  | [] => state
  | c :: rest =>
    if c = '[' then
      let name := rest.takeWhile (· ≠ ']')
      if ']' ∈ rest ∧ name ≠ [] then
        { state with currentModule := name.take (kMaxModuleNameLength - 1) }
      else state
    else if c = '#' ∨ c = ';' then state
    else if '=' ∈ c :: rest then
      parseEntry validGpio state ((c :: rest).takeWhile (· ≠ '='))
        (((c :: rest).dropWhile (· ≠ '=')).drop 1)
    else state.skip

def isLineEnd (c : Char) : Bool := c = '\r' || c = '\n'

def parseFile (validGpio : Int → Bool) (data : SettingsData) (buffer : Text) : ParseState :=
  (tokens isLineEnd (cString buffer)).foldl (parseLine validGpio) { data }

/-- Whether it loaded, the lines it skipped, and the settings and card after it. A
card without a readable file gets one of the settings as they are. -/
def load (validGpio : Int → Bool) (settings : RobotSettings) (card : SDCard) (readable : Bool)
    (answer : WriteAnswer) : Bool × UInt16 × RobotSettings × SDCard :=
  if card.mounted = false then (false, 0, settings, card)
  else
    match card.readFile (ROBOT_SETTINGS_FILE_MAX_BYTES - 1) readable with
    | some buffer =>
      let parsed := parseFile validGpio settings.data buffer
      (true, parsed.skippedLines, { settings with data := parsed.data }, card)
    | none =>
      let (saved, settings, card) := save settings card answer
      (saved, 0, settings, card)

end BallyOS.Settings
