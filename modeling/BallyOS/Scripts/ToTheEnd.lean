import BallyOS.Scripts.Runner

/-! Which scripts run to their end, each line once, whatever room the command queue has. -/
namespace BallyOS.Scripts
open Library Jobs

/-! ### Runs -/

def passes (file : List UInt8) (rooms : List Bool) : Script :=
  rooms.foldl pollScript (startScript file)

/-- What was submitted and what is left make up the commands; at the end nothing is left. -/
structure Going (total : List (List UInt8)) (script : Script) : Prop where
  active : script.active = true → script.submitted ++ commands script.rest = total
  ended : script.active = false → script.submitted = total

private theorem going_pollScript {total : List (List UInt8)} {script : Script}
    (going : Going total script) (room : Bool) : Going total (pollScript script room) := by
  obtain active | ended := Bool.eq_false_or_eq_true script.active
  case inr => rwa [pollScript, if_neg (by simp [ended])]
  have whole := going.active active
  obtain ⟨none, inactive, kept⟩ | ⟨text, later, first, taken, still, left, sent⟩ |
      ⟨text, later, first, refuses, still, left, kept⟩ := passed_pollScript active room
  · rw [none, List.append_nil] at whole
    exact ⟨fun active => (by rw [inactive] at active; cases active), fun _ => kept.trans whole⟩
  · refine ⟨fun _ => ?_, fun ended => ?_⟩
    · rw [sent, left, ← whole, first, List.append_assoc]
      rfl
    · rw [still, active] at ended
      cases ended
  · refine ⟨fun _ => ?_, fun ended => ?_⟩
    · rw [kept, left, ← whole, first]
    · rw [still, active] at ended
      cases ended

private theorem going_foldl {total : List (List UInt8)} {script : Script}
    (going : Going total script)
    (rooms : List Bool) : Going total (rooms.foldl pollScript script) := by
  induction rooms generalizing script with
  | nil => exact going
  | cons room rooms ih => exact ih (going_pollScript going room)

private theorem going_passes (file : List UInt8) (rooms : List Bool) :
    Going (commands (file.take kScriptMaxBytes)) (passes file rooms) := by
  have began : Going (commands (file.take kScriptMaxBytes)) (startScript file) :=
    ⟨fun _ => rfl, nofun⟩
  exact going_foldl began rooms

private theorem mem_commands {rest text : List UInt8} (member : text ∈ commands rest) :
    text ≠ [] ∧ (0 : UInt8) ∉ text := by
  obtain ⟨segment, -, made⟩ := List.mem_filterMap.mp member
  obtain ⟨rfl, runs, -⟩ := command_eq_some.mp made
  refine ⟨fun none => ?_, nul_not_mem_untilNul _⟩
  rw [none] at runs
  exact absurd runs (by decide)

/-- A command that the queue's slots hold. -/
def Fits (text : List UInt8) : Prop := text.length ≤ kMaxShellCommandSize

/-- With room in the queue, a pass takes one of the commands left, or ends the script. -/
theorem ends_with_room {script : Script} (fits : ∀ text ∈ commands script.rest, Fits text) :
    ∃ more, ((List.replicate more true).foldl pollScript script).active = false := by
  obtain active | ended := Bool.eq_false_or_eq_true script.active
  case inr => exact ⟨0, ended⟩
  generalize left : commands script.rest = texts at fits
  induction texts generalizing script with
  | nil =>
    obtain ⟨-, inactive, -⟩ | ⟨text, later, first, -⟩ | ⟨text, later, first, -⟩ :=
      passed_pollScript active true
    · exact ⟨1, inactive⟩
    · rw [left] at first
      cases first
    · rw [left] at first
      cases first
  | cons text later ih =>
    obtain ⟨none, -⟩ | ⟨other, rest, first, -, still, after, -⟩ |
        ⟨other, rest, first, refuses, -⟩ := passed_pollScript active true
    · rw [left] at none
      cases none
    · rw [left] at first
      cases first
      obtain ⟨more, ended⟩ := ih (still.trans active) after
        fun text member => fits text (List.mem_cons_of_mem _ member)
      exact ⟨more + 1, ended⟩
    · have member : other ∈ commands script.rest := first ▸ List.mem_cons_self
      have short : Fits other := fits other (by rwa [← left])
      have taken : submitLocalCommand other true = true := by
        simp only [submitLocalCommand, Bool.and_eq_true, decide_eq_true_eq, and_true]
        exact ⟨(mem_commands member).1, short⟩
      rw [taken] at refuses
      cases refuses

/-- A command too long for the queue is never passed. -/
theorem blocked_foldl {script : Script} (active : script.active = true)
    (long : ∃ text ∈ commands script.rest, ¬ Fits text) (rooms : List Bool) :
    (rooms.foldl pollScript script).active = true := by
  induction rooms generalizing script with
  | nil => exact active
  | cons room rooms ih =>
    obtain ⟨text, member, tooLong⟩ := long
    obtain ⟨none, -⟩ | ⟨other, rest, first, taken, still, after, -⟩ |
        ⟨other, rest, first, -, still, after, -⟩ := passed_pollScript active room
    · rw [none] at member
      cases member
    · rw [first] at member
      refine ih (still.trans active) ⟨text, ?_, tooLong⟩
      rw [after]
      obtain rfl | later := List.mem_cons.mp member
      · unfold submitLocalCommand at taken
        simp only [Bool.and_eq_true, decide_eq_true_eq] at taken
        exact absurd taken.1.2 tooLong
      · exact later
    · refine ih (still.trans active) ⟨text, ?_, tooLong⟩
      rwa [after, ← first]

/-! ### Lines of the file and commands -/

/-- A line that is to run: trimmed, not blank, no comment and no job command. -/
def runnableLine (segment : List UInt8) : Option (List UInt8) :=
  let text := trimmed isSpaceOrTab segment
  if !isRunnable text || isJobCommand text then none else some text

def runnableLines (file : List UInt8) : List (List UInt8) := (lines file).filterMap runnableLine

private theorem isJobCommand_iff {line : List UInt8} : isJobCommand line = true ↔
    ∃ a b c rest, line.dropWhile isSpaceOrTab = a :: b :: c :: rest ∧
      (lower a = 106 ∧ lower b = 111 ∧ lower c = 98) ∧
        ∀ after ∈ rest.head?, after = 32 ∨ after = 9 ∨ after = 45 := by
  unfold isJobCommand
  generalize line.dropWhile isSpaceOrTab = text
  rcases text with _ | ⟨a, _ | ⟨b, _ | ⟨c, rest⟩⟩⟩
  · simp
  · simp
  · simp
  cases rest with
  | nil => simp
  | cons d rest => simp [and_assoc, or_assoc]

private theorem lower_ne_zero {c : UInt8} (letter : 97 ≤ lower c) : c ≠ 0 := by
  rintro rfl
  exact absurd letter (by decide)

private theorem runnableLine_eq_some {segment text : List UInt8} :
    runnableLine segment = some text ↔ trimmed isSpaceOrTab segment = text ∧
      isRunnable text = true ∧ isJobCommand text = false := by
  unfold runnableLine
  dsimp only
  split
  · rename_i none
    constructor
    · nofun
    · rintro ⟨rfl, runs, other⟩
      simp [runs, other] at none
  · rename_i some
    simp only [Bool.or_eq_true, not_or, Bool.not_eq_true, Bool.not_eq_false'] at some
    constructor
    · rintro ⟨⟩
      exact ⟨rfl, some⟩
    · rintro ⟨rfl, -⟩
      rfl

/-- The word of a job command has no NUL, so a NUL is behind it. -/
theorem isJobCommand_untilNul {text : List UInt8} (job : isJobCommand text = true) :
    isJobCommand (untilNul text) = true := by
  obtain ⟨a, b, c, rest, split, word, ends⟩ := isJobCommand_iff.mp job
  have blanks : ∀ d ∈ text.takeWhile isSpaceOrTab, decide (d ≠ 0) = true := by
    intro d member
    have blank : isSpaceOrTab d = true := List.mem_takeWhile_imp member
    apply decide_eq_true
    rintro rfl
    exact absurd blank (by decide)
  have front : ∀ d ∈ text.takeWhile isSpaceOrTab, isSpaceOrTab d = true :=
    fun d member => List.mem_takeWhile_imp member
  have letters : a ≠ 0 ∧ b ≠ 0 ∧ c ≠ 0 :=
    ⟨lower_ne_zero (by rw [word.1]; decide), lower_ne_zero (by rw [word.2.1]; decide),
      lower_ne_zero (by rw [word.2.2]; decide)⟩
  have solid : ¬ isSpaceOrTab a = true := by
    have first := List.head?_dropWhile_not isSpaceOrTab text
    rw [split] at first
    simpa using first
  have whole : untilNul text = text.takeWhile isSpaceOrTab ++ a :: b :: c :: untilNul rest := by
    conv_lhs => rw [← List.takeWhile_append_dropWhile (p := isSpaceOrTab) (l := text), split]
    unfold untilNul
    rw [List.takeWhile_append_of_pos blanks]
    simp [letters]
  refine isJobCommand_iff.mpr ⟨a, b, c, untilNul rest, ?_, word, fun after first => ?_⟩
  · rw [whole, List.dropWhile_append_of_pos front, List.dropWhile_cons_of_neg solid]
  · cases rest with
    | nil => cases first
    | cons d rest =>
      have mark := ends d rfl
      have kept : untilNul (d :: rest) = d :: untilNul rest :=
        List.takeWhile_cons_of_pos (by rcases mark with rfl | rfl | rfl <;> decide)
      rw [kept] at first
      cases first
      exact mark

private theorem isRunnable_of_untilNul {text : List UInt8}
    (runs : isRunnable (untilNul text) = true) :
    isRunnable text = true := by
  cases text with
  | nil => exact runs
  | cons c rest =>
    by_cases zero : c = 0
    · have ended : untilNul (c :: rest) = [] := List.takeWhile_cons_of_neg (by simp [zero])
      rw [ended] at runs
      exact absurd runs (by decide)
    · have kept : untilNul (c :: rest) = c :: untilNul rest :=
        List.takeWhile_cons_of_pos (by simp [zero])
      rw [kept] at runs
      simpa [isRunnable] using runs

/-- What is no command of the file is none of a pass. -/
theorem command_of_none {segment : List UInt8} (none : runnableLine segment = Option.none) :
    command segment = Option.none := by
  cases made : command segment with
  | none => rfl
  | some text =>
    obtain ⟨rfl, runs, other⟩ := command_eq_some.mp made
    have whole := isRunnable_of_untilNul runs
    have notJob : isJobCommand (trimmed isSpaceOrTab segment) = false := by
      refine Bool.eq_false_iff.mpr fun job => ?_
      rw [isJobCommand_untilNul job] at other
      cases other
    rw [runnableLine_eq_some.mpr ⟨rfl, whole, notJob⟩] at none
    cases none

private theorem command_of_clean {segment text : List UInt8}
    (line : runnableLine segment = some text)
    (clean : (0 : UInt8) ∉ text) : command segment = some text := by
  obtain ⟨same, runs⟩ := runnableLine_eq_some.mp line
  refine command_eq_some.mpr ⟨?_, runs⟩
  rw [same, untilNul_of_none clean]

/-- A line with a NUL that is to run is still to run, and still has it, when there is more. -/
theorem runnableLine_append {segment text : List UInt8} (line : runnableLine segment = some text)
    (nul : (0 : UInt8) ∈ text) (more : List UInt8) :
    ∃ grown, runnableLine (segment ++ more) = some grown ∧ (0 : UInt8) ∈ grown := by
  obtain ⟨rfl, runs, other⟩ := runnableLine_eq_some.mp line
  have some : trimmed isSpaceOrTab segment ≠ [] := by
    intro none
    rw [none] at runs
    exact absurd runs (by decide)
  obtain ⟨tail, grown⟩ := trimmed_append segment more some
  refine ⟨trimmed isSpaceOrTab (segment ++ more), runnableLine_eq_some.mpr ⟨rfl, ?_, ?_⟩, ?_⟩
  · rw [← grown]
    simp only [isRunnable, Bool.and_eq_true, decide_eq_true_eq] at runs ⊢
    refine ⟨by simp [some], ?_⟩
    rw [List.head?_append_of_ne_nil _ some]
    exact runs.2
  · -- the NUL is behind the word, which is then all in the part that was there before
    refine Bool.eq_false_iff.mpr fun job => ?_
    obtain ⟨a, b, c, rest, split, word, ends⟩ := isJobCommand_iff.mp job
    rw [dropWhile_trimmed, ← grown] at split
    have letters : 0 ≠ a ∧ 0 ≠ b ∧ 0 ≠ c :=
      ⟨(lower_ne_zero (by rw [word.1]; decide)).symm,
        (lower_ne_zero (by rw [word.2.1]; decide)).symm,
        (lower_ne_zero (by rw [word.2.2]; decide)).symm⟩
    have before : isJobCommand (trimmed isSpaceOrTab segment) = true := by
      apply isJobCommand_iff.mpr
      rw [dropWhile_trimmed]
      generalize trimmed isSpaceOrTab segment = text at split nul
      rcases text with _ | ⟨x, _ | ⟨y, _ | ⟨z, _ | ⟨d, behind⟩⟩⟩⟩
      · cases nul
      · simp only [List.cons_append, List.cons.injEq] at split
        simp [split.1, letters] at nul
      · simp only [List.cons_append, List.cons.injEq] at split
        simp [split.1, split.2.1, letters] at nul
      · simp only [List.cons_append, List.cons.injEq] at split
        simp [split.1, split.2.1, split.2.2.1, letters] at nul
      · simp only [List.cons_append, List.cons.injEq] at split
        obtain ⟨rfl, rfl, rfl, rfl⟩ := split
        exact ⟨x, y, z, d :: behind, rfl, word, fun after first =>
          ends after (by simpa using first)⟩
    rw [before] at other
    cases other
  · rw [← grown]
    exact List.mem_append_left _ nul

/-! ### The file -/

/-- Whatever room the queue has at each pass, what was submitted are the first of the lines to
run, each once and in order; and from whenever it always has room, the script comes to its end
with all of them. -/
structure RunsToEnd (file : List UInt8) : Prop where
  once : ∀ rooms, (passes file rooms).submitted <+: runnableLines file
  ends : ∀ rooms, ∃ more, (passes file (rooms ++ List.replicate more true)).active = false ∧
    (passes file (rooms ++ List.replicate more true)).submitted = runnableLines file

/-- What is behind the buffer's end is nothing that runs and nothing of a line that does, no line
to run has a NUL, and all of them fit the queue's slots. -/
structure Fitting (file : List UInt8) : Prop where
  read : runnableLines (file.take kScriptMaxBytes) = runnableLines file
  unended : ∀ line ∈ runnableLines file, (0 : UInt8) ∉ line
  fits : ∀ line ∈ runnableLines file, Fits line

private theorem filterMap_congr_clean {segments : List (List UInt8)}
    (clean : ∀ line ∈ segments.filterMap runnableLine, (0 : UInt8) ∉ line) :
    segments.filterMap command = segments.filterMap runnableLine := by
  refine List.filterMap_congr fun segment member => ?_
  cases line : runnableLine segment with
  | none => exact command_of_none line
  | some text =>
    exact command_of_clean line (clean text (List.mem_filterMap.mpr ⟨segment, member, line⟩))

/-- If the commands of what was read are the lines to run of the file, they are those of what
was read. -/
theorem runnableLines_of_commands {front more : List UInt8}
    (same : commands front = runnableLines (front ++ more)) :
    runnableLines front = runnableLines (front ++ more) := by
  have clean : ∀ line ∈ runnableLines (front ++ more), (0 : UInt8) ∉ line := by
    intro line member
    rw [← same] at member
    exact (mem_commands member).2
  have whole : lines (front ++ more) = _ := tokens_append front more
  have read : lines front = _ := tokens_split front
  have kept {segment line : List UInt8} (within : segment ∈ lines (front ++ more))
      (made : runnableLine segment = some line) : (0 : UInt8) ∉ line :=
    clean line (List.mem_filterMap.mpr ⟨segment, within, made⟩)
  refine (filterMap_congr_clean fun line member nul => ?_).symm.trans same
  obtain ⟨segment, within, made⟩ := List.mem_filterMap.mp member
  rw [read] at within
  obtain before | last := List.mem_append.mp within
  · refine kept ?_ made nul
    rw [whole, List.append_assoc]
    exact List.mem_append_left _ before
  · -- the line that the end of the buffer cuts goes on
    have cut := closeToken_mem last
    obtain ⟨grown, longer, held⟩ := runnableLine_append made nul (more.takeWhile (!isLineEnd ·))
    refine kept ?_ longer held
    rw [whole, cut]
    refine List.mem_append_left _ (List.mem_append_right _ ?_)
    rw [cut] at last
    cases segment' : front.rtakeWhile (!isLineEnd ·) with
    | nil =>
      rw [segment'] at last
      cases last
    | cons c rest => exact List.mem_singleton_self _

theorem runs_to_end_iff (file : List UInt8) : RunsToEnd file ↔ Fitting file := by
  have whole : file.take kScriptMaxBytes ++ file.drop kScriptMaxBytes = file :=
    List.take_append_drop ..
  constructor
  · intro runs
    obtain ⟨more, ended, sent⟩ := runs.ends []
    have same : commands (file.take kScriptMaxBytes) = runnableLines file :=
      ((going_passes file _).ended ended).symm.trans sent
    refine ⟨?_, fun line member => ?_, fun line member => ?_⟩
    · have read := @runnableLines_of_commands (file.take kScriptMaxBytes)
        (file.drop kScriptMaxBytes)
      rw [whole] at read
      exact read same
    · rw [← same] at member
      exact (mem_commands member).2
    · by_contra long
      rw [← same] at member
      have blocked := @blocked_foldl (startScript file) rfl ⟨line, member, long⟩
        ([] ++ List.replicate more true)
      rw [passes, blocked] at ended
      cases ended
  · rintro ⟨read, unended, fits⟩
    have same : commands (file.take kScriptMaxBytes) = runnableLines file := by
      rw [← read] at unended ⊢
      exact filterMap_congr_clean unended
    refine ⟨fun rooms => ?_, fun rooms => ?_⟩
    · have going := going_passes file rooms
      rw [same] at going
      obtain active | ended := Bool.eq_false_or_eq_true (passes file rooms).active
      · exact ⟨_, going.active active⟩
      · exact going.ended ended ▸ List.prefix_refl _
    · obtain ⟨more, ended⟩ : ∃ more, ((List.replicate more true).foldl pollScript
          (passes file rooms)).active = false := by
        obtain active | ended := Bool.eq_false_or_eq_true (passes file rooms).active
        · refine ends_with_room fun text left => fits text ?_
          rw [← same, ← (going_passes file rooms).active active]
          exact List.mem_append_right _ left
        · exact ⟨0, ended⟩
      have joined : passes file (rooms ++ List.replicate more true) =
          (List.replicate more true).foldl pollScript (passes file rooms) := List.foldl_append ..
      refine ⟨more, joined ▸ ended, ?_⟩
      rw [(going_passes file _).ended (joined ▸ ended), same]

/-- A line of five hundred and thirteen letters keeps the script from ever ending. -/
theorem long_line_never_ends : ¬ ∀ file : List UInt8, RunsToEnd file := by
  intro always
  have long : ∃ text ∈ commands ((List.replicate 513 97).take kScriptMaxBytes), ¬ Fits text :=
    ⟨List.replicate 513 97, by decide +kernel, by rw [Fits, List.length_replicate]; decide⟩
  obtain ⟨more, ended, -⟩ := (always (List.replicate 513 97)).ends []
  have blocked := @blocked_foldl (startScript (List.replicate 513 97)) rfl long
    ([] ++ List.replicate more true)
  rw [passes, blocked] at ended
  cases ended

end BallyOS.Scripts
