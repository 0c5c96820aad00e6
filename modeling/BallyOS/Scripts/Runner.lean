import BallyOS.Library.Trimming
import BallyOS.Jobs.File

/-! The script runner: a file is read once, and each pass feeds at most one of its lines to the
command queue. -/
namespace BallyOS.Scripts
open Library Jobs

def kScriptMaxBytes : Nat := 2048
def kMaxShellCommandSize : Nat := 512

/-- `rest` is the buffer from the cursor to the end of what was read: nothing before the cursor
is looked at again. `submitted` are the commands that the queue took. -/
structure Script where
  rest : List UInt8 := []
  line : UInt16 := 0
  active : Bool := false
  submitted : List (List UInt8) := []
deriving Repr, DecidableEq

/-- The file is read as far as the buffer goes. -/
def startScript (file : List UInt8) : Script where
  rest := file.take kScriptMaxBytes
  active := true

/-- A line as it stands in the buffer once it was trimmed there: a NUL for each blank behind. -/
def trimmedInPlace (segment : List UInt8) : List UInt8 :=
  segment.takeWhile isSpaceOrTab ++ trimmed isSpaceOrTab segment ++
    List.replicate
      ((segment.dropWhile isSpaceOrTab).length - (trimmed isSpaceOrTab segment).length) 0

/-- Behind the separator of a line, which is CR, LF or both. -/
def behindSeparator : List UInt8 → List UInt8
  | 13 :: 10 :: rest => rest
  | 13 :: rest => rest
  | 10 :: rest => rest
  | rest => rest

/-- Whether the command goes into the queue; `room` is whether it has room. -/
def submitLocalCommand (command : List UInt8) (room : Bool) : Bool :=
  command ≠ [] && command.length ≤ kMaxShellCommandSize && room

/-- A line that makes a command: not blank, and no comment. -/
def isRunnable (text : List UInt8) : Bool := text ≠ [] && text.head? ≠ some 35

/-- The command that a pass makes of a line, as a C string: none of a blank line or a comment,
and none of a job command, which a script may not run. -/
def command (segment : List UInt8) : Option (List UInt8) :=
  let text := untilNul (trimmed isSpaceOrTab segment)
  if !isRunnable text || isJobCommand text then none else some text

/-- The loop of a pass. It ends in front of a line that was refused, behind one that was
submitted, or at the end of the script. -/
def pollLines : Nat → Bool → Script → Script
  | 0, _, script => script
  | fuel + 1, room, script =>
    if script.rest = [] then { script with active := false }
    else
      let segment := script.rest.takeWhile (!isLineEnd ·)
      let behind := script.rest.dropWhile (!isLineEnd ·)
      let next := { script with rest := behindSeparator behind, line := script.line + 1 }
      match command segment with
      | none => pollLines fuel room next
      | some text =>
        if submitLocalCommand text room then
          { next with submitted := script.submitted ++ [text] }
        else { script with rest := trimmedInPlace segment ++ behind }

def pollScript (script : Script) (room : Bool) : Script :=
  if script.active then pollLines (script.rest.length + 1) room script else script

/-! ### The commands of a text -/

def commands (text : List UInt8) : List (List UInt8) := (lines text).filterMap command

theorem command_eq_some {segment text : List UInt8} :
    command segment = some text ↔ untilNul (trimmed isSpaceOrTab segment) = text ∧
      isRunnable text = true ∧ isJobCommand text = false := by
  unfold command
  dsimp only
  split
  · rename_i none
    constructor
    · nofun
    · rintro ⟨rfl, runs, other⟩
      simp [runs, other] at none
  · rename_i some
    simp only [Bool.or_eq_true, not_or, Bool.not_eq_true, Bool.not_eq_false'] at some
    constructor
    · rintro ⟨⟩
      exact ⟨rfl, some⟩
    · rintro ⟨rfl, -⟩
      rfl

private theorem lines_behindSeparator (text : List UInt8) : lines (behindSeparator text) = lines
    text := by
  have blank {c : UInt8} (ends : isLineEnd c = true) (text : List UInt8) :
      lines (c :: text) = lines text := tokens_blank ends text
  have carriage := @blank 13 rfl
  have feed := @blank 10 rfl
  unfold behindSeparator
  split
  · rw [carriage, feed]
  · rw [carriage]
  · rw [feed]
  · rfl

/-- The line at the front, and the lines behind it. -/
theorem commands_split (rest : List UInt8) :
    commands rest = (command (rest.takeWhile (!isLineEnd ·))).toList ++
      commands (behindSeparator (rest.dropWhile (!isLineEnd ·))) := by
  unfold commands
  rw [lines_behindSeparator, lines, tokens, tokensFrom_first, List.nil_append,
    List.filterMap_append]
  congr 1
  cases rest.takeWhile (!isLineEnd ·) with
  | nil => rfl
  | cons c segment =>
    rw [closeToken, List.filterMap_cons, List.filterMap_nil]
    cases command (c :: segment) <;> rfl

/-- A line that is tried again is the same command, though the blanks behind it are gone. -/
theorem command_trimmedInPlace {segment text : List UInt8} (made : command segment = some text) :
    command (trimmedInPlace segment) = some text := by
  obtain ⟨same, runs, other⟩ := command_eq_some.mp made
  have some : trimmed isSpaceOrTab segment ≠ [] := by
    intro none
    rw [none] at same
    subst same
    exact absurd runs (by decide)
  have solid : ∀ c ∈ List.replicate ((segment.dropWhile isSpaceOrTab).length -
      (trimmed isSpaceOrTab segment).length) (0 : UInt8), isSpaceOrTab c = false := by
    intro c member
    rw [List.eq_of_mem_replicate member]
    decide
  refine command_eq_some.mpr ⟨?_, runs, other⟩
  rw [trimmedInPlace, trimmed_refilled some solid, untilNul_append _ fun c head =>
    List.eq_of_mem_replicate (List.mem_of_mem_head? head)]
  exact same

private theorem isLineEnd_trimmedInPlace {segment : List UInt8}
    (clean : ∀ c ∈ segment, isLineEnd c = false) :
    ∀ c ∈ trimmedInPlace segment, isLineEnd c = false := by
  intro c member
  rw [trimmedInPlace, List.mem_append, List.mem_append] at member
  obtain (front | inside) | zero := member
  · exact clean c ((List.takeWhile_prefix _).subset front)
  · exact clean c ((List.dropWhile_suffix _).subset ((List.rdropWhile_prefix ..).subset inside))
  · rw [List.eq_of_mem_replicate zero]
    decide

/-- With its first line left to be tried again, a text has the same commands. -/
theorem commands_retried {rest text : List UInt8}
    (made : command (rest.takeWhile (!isLineEnd ·)) = some text) :
    commands (trimmedInPlace (rest.takeWhile (!isLineEnd ·)) ++
        rest.dropWhile (!isLineEnd ·)) =
      text :: commands (behindSeparator (rest.dropWhile (!isLineEnd ·))) := by
  have clean : ∀ c ∈ trimmedInPlace (rest.takeWhile (!isLineEnd ·)), (!isLineEnd c) = true := by
    intro c member
    rw [isLineEnd_trimmedInPlace (fun d inside => ?_) c member]
    · rfl
    · have solid : (!isLineEnd d) = true := List.mem_takeWhile_imp (p := (!isLineEnd ·)) inside
      simpa using solid
  have ends : (rest.dropWhile (!isLineEnd ·)).takeWhile (!isLineEnd ·) = [] ∧
      (rest.dropWhile (!isLineEnd ·)).dropWhile (!isLineEnd ·) =
        rest.dropWhile (!isLineEnd ·) := by
    have first := List.head?_dropWhile_not (!isLineEnd ·) rest
    cases behind : rest.dropWhile (!isLineEnd ·) with
    | nil => exact ⟨rfl, rfl⟩
    | cons c more =>
      rw [behind] at first
      have stops : ¬ (!isLineEnd c) = true := by simpa using first
      exact ⟨List.takeWhile_cons_of_neg stops, List.dropWhile_cons_of_neg stops⟩
  rw [commands_split, List.takeWhile_append_of_pos clean, List.dropWhile_append_of_pos clean,
    ends.1, ends.2, List.append_nil, command_trimmedInPlace made]
  rfl

/-! ### One pass -/

private theorem length_behindSeparator (text : List UInt8) :
    (behindSeparator text).length ≤ text.length := by
  unfold behindSeparator
  split
  · exact Nat.le_add_right_of_le (Nat.le_succ _)
  · exact Nat.le_succ _
  · exact Nat.le_succ _
  · exact Nat.le_refl _

/-- Each line takes the cursor on. -/
theorem length_behind {rest : List UInt8} (some : rest ≠ []) :
    (behindSeparator (rest.dropWhile (!isLineEnd ·))).length < rest.length := by
  obtain ⟨c, rest, rfl⟩ := List.exists_cons_of_ne_nil some
  by_cases ends : isLineEnd c = true
  · rw [List.dropWhile_cons_of_neg (by simp [ends])]
    have marks : c = 10 ∨ c = 13 := by simpa [isLineEnd] using ends
    obtain rfl | rfl := marks
    · exact Nat.lt_succ_self _
    · unfold behindSeparator
      split
      · rename_i same
        cases same
        simp only [List.length_cons]
        omega
      · rename_i same
        cases same
        exact Nat.lt_succ_self _
      · rename_i same
        cases same
      · rename_i other _
        exact absurd rfl (other rest)
  · rw [List.dropWhile_cons_of_pos (by simp [ends])]
    have shorter : (rest.dropWhile (!isLineEnd ·)).length ≤ rest.length :=
      (List.dropWhile_suffix _).length_le
    exact Nat.lt_succ_of_le (Nat.le_trans (length_behindSeparator _) shorter)

/-- What a pass does with the commands that are left: nothing is left, and the script is ended;
or the first of them is submitted; or it is refused and stays the first. -/
inductive Passed (room : Bool) (script next : Script) : Prop
  | ended (none : commands script.rest = []) (inactive : next.active = false)
      (kept : next.submitted = script.submitted)
  | submitted (text : List UInt8) (later : List (List UInt8))
      (first : commands script.rest = text :: later) (taken : submitLocalCommand text room = true)
      (active : next.active = script.active) (left : commands next.rest = later)
      (sent : next.submitted = script.submitted ++ [text])
  | refused (text : List UInt8) (later : List (List UInt8))
      (first : commands script.rest = text :: later)
      (refuses : submitLocalCommand text room = false)
      (active : next.active = script.active) (left : commands next.rest = text :: later)
      (kept : next.submitted = script.submitted)

private theorem passed_pollLines {fuel : Nat} {room : Bool} {script : Script}
    (enough : script.rest.length < fuel) : Passed room script (pollLines fuel room script) := by
  induction fuel generalizing script with
  | zero => exact absurd enough (Nat.not_lt_zero _)
  | succ fuel ih =>
    rw [pollLines]
    split
    · rename_i none
      refine .ended ?_ rfl rfl
      rw [none]
      rfl
    rename_i some
    dsimp only
    have parted := commands_split script.rest
    have shorter := length_behind some
    cases made : command (script.rest.takeWhile (!isLineEnd ·)) with
    | none =>
      rw [made] at parted
      obtain ⟨none, inactive, kept⟩ | ⟨text, later, first, taken, active, left, sent⟩ |
          ⟨text, later, first, refuses, active, left, kept⟩ :=
        @ih { script with
          rest := behindSeparator (script.rest.dropWhile (!isLineEnd ·))
          line := script.line + 1 } (Nat.lt_of_lt_of_le shorter (Nat.le_of_lt_succ enough))
      · exact .ended (parted.trans none) inactive kept
      · exact .submitted text later (parted.trans first) taken active left sent
      · exact .refused text later (parted.trans first) refuses active left kept
    | some text =>
      rw [made] at parted
      dsimp only
      split
      · rename_i taken
        exact .submitted text _ parted taken rfl rfl rfl
      · rename_i refuses
        exact .refused text _ parted (Bool.eq_false_iff.mpr refuses) rfl
          (commands_retried made) rfl

theorem passed_pollScript {script : Script} (active : script.active = true) (room : Bool) :
    Passed room script (pollScript script room) := by
  rw [pollScript, if_pos active]
  exact passed_pollLines (Nat.lt_succ_self _)

end BallyOS.Scripts
