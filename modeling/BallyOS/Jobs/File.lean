import BallyOS.Library.ByteText
import BallyOS.Library.Tokens
import BallyOS.Jobs.Table

/-! The job file on the card: one line a job, written by `saveJobs` and read by `loadJobs`. -/
namespace BallyOS.Jobs
open Library

/-! ### State names -/

def NUMBER_OF_STATES : UInt8 := 10

def stateToString (state : UInt8) : List UInt8 :=
  ascii <| match state.toNat with
    | 0 => "NONE"
    | 1 => "SETUP"
    | 2 => "WAIT"
    | 3 => "CALIBRATE"
    | 4 => "DEBUG"
    | 5 => "RUN"
    | 6 => "FINISH"
    | 7 => "TELEMETRY"
    | 8 => "ERROR"
    | 9 => "COMM_CONFIG"
    | _ => "UNKNOWN"

def verifyState (state : UInt8) : Bool := 0 < state ∧ state < NUMBER_OF_STATES

def candidates : List UInt8 := [1, 2, 3, 4, 5, 6, 7, 8, 9]

/-- The state of a name in any case of letters; 0, which is NONE, for what is no state's name. -/
def stateFromString (name : List UInt8) : UInt8 :=
  (candidates.find? fun candidate => stateToString candidate = name.map toUpperByte).getD 0

/-! ### Lines -/

/-- What a line says to schedule. -/
inductive Entry
  | interval (intervalMs remaining : UInt32) (command : List UInt8)
  | onState (state : UInt8) (command : List UInt8)
deriving Repr, DecidableEq

/-- The line of a job; one for a single firing has none. -/
def Job.line (job : Job) : List UInt8 :=
  match job.kind with
  | .interval => ascii "interval," ++ (printDecimal job.intervalMs.toNat ++ 44 ::
      (printDecimal job.remaining.toNat ++ 44 :: job.command)) ++ [10]
  | .onStateEnter => ascii "on_state," ++ (stateToString job.state ++ 44 :: job.command) ++ [10]
  | .once => []

/-- The fields of a line, as they stand in it. -/
inductive Fields
  | interval (intervalMs remaining command : List UInt8)
  | onState (state command : List UInt8)
deriving Repr, DecidableEq

def fields (line : List UInt8) : Option Fields :=
  if ascii "interval," <+: line then
    (splitAtFirst 44 (line.drop 9)).bind fun (intervalMs, rest) =>
      (splitAtFirst 44 rest).map fun (remaining, command) =>
        .interval intervalMs remaining command
  else if ascii "on_state," <+: line then
    (splitAtFirst 44 (line.drop 9)).map fun (state, command) => .onState state command
  else none

/-- What the fields are read as. -/
def Fields.entry : Fields → Entry
  | .interval intervalMs remaining command =>
    .interval (strtoulDecimal intervalMs) (strtoulDecimal remaining) command
  | .onState state command => .onState (stateFromString state) command

/-! ### The card and its file -/

structure SDCard where
  mounted : Bool := false
  jobSaveFile : Option (List UInt8) := none
deriving Repr, DecidableEq

def kJobSaveBufferBytes : Nat := kMaxJobs * (kMaxCommandLength + 48)

/-- The lines that fit the buffer, none of them torn. -/
def saveLines : List UInt8 → List Job → List UInt8
  | buffer, [] => buffer
  | buffer, job :: rest =>
    if job.kind = .once then saveLines buffer rest
    else if job.line.length ≥ kJobSaveBufferBytes - buffer.length then buffer
    else saveLines (buffer ++ job.line) rest

/-- `written` is whether the write succeeds, and `left` what is on the card when it does not. -/
def saveJobs (scheduler : Scheduler) (card : SDCard) (written : Bool) (left : Option (List UInt8)) :
    Bool × SDCard :=
  if !card.mounted then (false, card)
  else
    let buffer := saveLines [] (scheduler.jobs.filter Job.active)
    (written, { card with jobSaveFile := if written then some buffer else left })

def isLineEnd (c : UInt8) : Bool := c = 10 ∨ c = 13

/-- The lines of a text that are not empty. -/
def lines (text : List UInt8) : List (List UInt8) := tokens isLineEnd text

def Entry.schedule (scheduler : Scheduler) : Entry → Error × Scheduler
  | .interval intervalMs remaining command =>
    scheduleInterval scheduler intervalMs remaining (some command)
  | .onState state command => scheduleOnState scheduler state (some command)

/-- What a line scheduled, if it did. The line is a C string in the buffer. -/
def loadLine (scheduler : Scheduler) (line : List UInt8) : Option Entry × Scheduler :=
  match fields (untilNul line) with
  | none => (none, scheduler)
  | some found =>
    let (error, next) := found.entry.schedule scheduler
    (if error = .ok then some found.entry else none, next)

/-- What each line scheduled. -/
def loadLines (scheduler : Scheduler) : List (List UInt8) → List (Option Entry) × Scheduler
  | [] => ([], scheduler)
  | line :: rest =>
    let (restored, next) := loadLine scheduler line
    let (others, last) := loadLines next rest
    (restored :: others, last)

structure Loaded where
  done : Bool
  restored : List (Option Entry) := []
  scheduler : Scheduler
deriving Repr, DecidableEq

/-- `readable` is whether the read succeeds; it stops where the buffer is full. -/
def loadJobs (card : SDCard) (readable : Bool) (scheduler : Scheduler) : Loaded :=
  match card.mounted, card.jobSaveFile, readable with
  | true, some file, true =>
    let (restored, last) := loadLines scheduler (lines (file.take kJobSaveBufferBytes))
    { done := true, restored := restored, scheduler := last }
  | _, _, _ => { done := false, scheduler := scheduler }

/-! ### Names, there and back -/

private theorem mem_candidates {state : UInt8} : state ∈ candidates ↔ verifyState state = true := by
  constructor
  · intro member
    have every : candidates.all verifyState = true := by decide
    exact List.all_eq_true.mp every state member
  · intro valid
    have bounds : 0 < state.toNat ∧ state.toNat < 10 := by
      simpa [verifyState, NUMBER_OF_STATES, UInt8.lt_iff_toNat_lt] using valid
    have one : ∀ n : Nat, 0 < n → n < 10 → UInt8.ofNat n ∈ candidates := by
      intro n low high
      have : n = 1 ∨ n = 2 ∨ n = 3 ∨ n = 4 ∨ n = 5 ∨ n = 6 ∨ n = 7 ∨ n = 8 ∨ n = 9 := by omega
      rcases this with rfl | rfl | rfl | rfl | rfl | rfl | rfl | rfl | rfl <;> decide
    have found := one state.toNat bounds.1 bounds.2
    rwa [UInt8.ofNat_toNat] at found

theorem stateFromString_toString {state : UInt8} (valid : verifyState state = true) :
    stateFromString (stateToString state) = state := by
  have every : candidates.all (fun candidate =>
      stateFromString (stateToString candidate) == candidate) = true := by decide +kernel
  exact beq_iff_eq.mp (List.all_eq_true.mp every state (mem_candidates.mpr valid))

theorem stateToString_length (state : UInt8) : (stateToString state).length ≤ 11 := by
  unfold stateToString
  split <;> decide +kernel

/-- The name of a state has neither a comma nor a control character in it. -/
theorem stateToString_plain (state : UInt8) : ∀ c ∈ stateToString state, 48 ≤ c := by
  have plain : (stateToString state).all (48 ≤ ·) = true := by
    unfold stateToString
    split <;> decide +kernel
  exact fun c member => of_decide_eq_true (List.all_eq_true.mp plain c member)

/-! ### Fields, there and back -/

def Fields.text : Fields → List UInt8
  | .interval intervalMs remaining command =>
    ascii "interval," ++ (intervalMs ++ 44 :: (remaining ++ 44 :: command))
  | .onState state command => ascii "on_state," ++ (state ++ 44 :: command)

/-- The fields in front of the command end at the first comma. -/
def Fields.Parted : Fields → Prop
  | .interval intervalMs remaining _ => (44 : UInt8) ∉ intervalMs ∧ (44 : UInt8) ∉ remaining
  | .onState state _ => (44 : UInt8) ∉ state

private theorem drop_word {word line : List UInt8} {length : Nat} (long : word.length = length)
    (leads : word <+: line) : line = word ++ line.drop length := by
  obtain ⟨rest, rfl⟩ := leads
  rw [← long, List.drop_left]

theorem interval_length : (ascii "interval,").length = 9 := by decide

theorem on_state_length : (ascii "on_state,").length = 9 := by decide

private theorem on_state_not_interval (rest : List UInt8) :
    ¬ ascii "interval," <+: ascii "on_state," ++ rest := by
  rintro ⟨more, same⟩
  have first : (ascii "interval,").take 1 = (ascii "on_state,").take 1 := by
    have front := congrArg (List.take 1) same
    rwa [List.take_append_of_le_length (by decide), List.take_append_of_le_length (by decide)]
      at front
  exact absurd first (by decide)

/-- The fields are the one way to part a line. -/
theorem fields_eq_some {line : List UInt8} {found : Fields} :
    fields line = some found ↔ line = found.text ∧ found.Parted := by
  unfold fields
  constructor
  · intro parted
    split at parted
    · rename_i interval
      obtain ⟨⟨first, rest⟩, front, parted⟩ := Option.bind_eq_some_iff.mp parted
      obtain ⟨⟨second, command⟩, back, made⟩ := Option.map_eq_some_iff.mp parted
      cases made
      obtain ⟨whole, firstClean⟩ := splitAtFirst_eq_some.mp front
      obtain ⟨behind, secondClean⟩ := splitAtFirst_eq_some.mp back
      refine ⟨?_, firstClean, secondClean⟩
      rw [drop_word interval_length interval, whole, behind]
      rfl
    split at parted
    · rename_i onState
      obtain ⟨⟨state, command⟩, front, made⟩ := Option.map_eq_some_iff.mp parted
      cases made
      obtain ⟨whole, clean⟩ := splitAtFirst_eq_some.mp front
      refine ⟨?_, clean⟩
      rw [drop_word on_state_length onState, whole]
      rfl
    · cases parted
  · rintro ⟨rfl, clean⟩
    cases found with
    | interval intervalMs remaining command =>
      have interval : ascii "interval," <+: (Fields.interval intervalMs remaining command).text :=
        List.prefix_append ..
      have rest : (Fields.interval intervalMs remaining command).text.drop 9 =
          intervalMs ++ 44 :: (remaining ++ 44 :: command) :=
        List.drop_left' interval_length
      rw [if_pos interval, rest, splitAtFirst_append clean.1]
      dsimp only [Option.bind_some]
      rw [splitAtFirst_append clean.2]
      rfl
    | onState state command =>
      have onState : ascii "on_state," <+: (Fields.onState state command).text :=
        List.prefix_append ..
      have rest : (Fields.onState state command).text.drop 9 = state ++ 44 :: command :=
        List.drop_left' on_state_length
      have other : ¬ ascii "interval," <+: (Fields.onState state command).text :=
        on_state_not_interval _
      rw [if_neg other, if_pos onState, rest, splitAtFirst_append clean]
      rfl

/-! ### Scheduling an entry -/

/-- What the file keeps of a job. -/
def Job.entry (job : Job) : Option Entry :=
  match job.kind with
  | .interval => some (.interval job.intervalMs job.remaining job.command)
  | .onStateEnter => some (.onState job.state job.command)
  | .once => none

def Entry.command : Entry → List UInt8
  | .interval _ _ command => command
  | .onState _ command => command

def Entry.ticks : Entry → Bool
  | .interval intervalMs _ _ => intervalMs ≠ 0
  | .onState _ _ => true

/-- The checks of a schedule call that are about its arguments. -/
def Entry.passes (entry : Entry) : Bool :=
  entry.ticks && entry.command ≠ [] && entry.command.length ≤ kMaxCommandLength &&
    !isJobCommand entry.command

def Scheduler.freeSlots (scheduler : Scheduler) : Nat :=
  scheduler.jobs.countP fun job => !job.active

/-- The call is one that the table takes: it is bound, and it has a free slot. -/
def Entry.taken (scheduler : Scheduler) (entry : Entry) : Bool :=
  scheduler.submit && entry.passes && scheduler.freeSlots ≠ 0

/-- What a call leaves that was taken: the first free slot has a job with the entry. -/
structure Placed (scheduler next : Scheduler) (entry : Entry) : Prop where
  placed : ∃ made old rest job, scheduler.jobs = made ++ old :: rest ∧
    (∀ job ∈ made, job.active = true) ∧ old.active = false ∧
    next.jobs = made ++ job :: rest ∧ job.active = true ∧ job.entry = some entry
  submit : next.submit = scheduler.submit

private theorem commandError_eq_none {scheduler : Scheduler} {command : List UInt8} :
    commandError scheduler (some command) = none ↔ scheduler.submit = true ∧ command ≠ [] ∧
      command.length ≤ kMaxCommandLength ∧ isJobCommand command = false := by
  unfold commandError
  cases scheduler.submit with
  | false => simp
  | true =>
    dsimp only
    split
    · simp_all
    split
    · simp_all
    split
    · simp_all
    · simp_all

private theorem first_free {jobs : List Job} (found : jobs.countP (fun job => !job.active) ≠ 0) :
    ∃ made old rest, jobs = made ++ old :: rest ∧ (∀ job ∈ made, job.active = true) ∧
      old.active = false := by
  induction jobs with
  | nil => exact absurd rfl found
  | cons job jobs ih =>
    obtain active | free := Bool.eq_false_or_eq_true job.active
    case inr => exact ⟨[], job, jobs, rfl, nofun, free⟩
    have later : jobs.countP (fun job => !job.active) ≠ 0 := by
      rwa [List.countP_cons_of_neg (by simp [active])] at found
    obtain ⟨made, old, rest, whole, before, free⟩ := ih later
    refine ⟨job :: made, old, rest, by rw [whole]; rfl, fun other member => ?_, free⟩
    obtain rfl | inside := List.mem_cons.mp member
    · exact active
    · exact before other inside

private theorem allocate_placed {scheduler : Scheduler} {command : List UInt8}
    {made rest : List Job}
    {old : Job} (checked : commandError scheduler (some command) = none)
    (jobs : scheduler.jobs = made ++ old :: rest) (before : ∀ job ∈ made, job.active = true)
    (free : old.active = false) (repeats : UInt32) (fill : Job → Job) :
    ∃ job : Job, job.active = true ∧ job.command = command ∧
      (allocate scheduler (some command) repeats fill).1 = .ok ∧
      (allocate scheduler (some command) repeats fill).2.jobs = made ++ fill job :: rest ∧
      (allocate scheduler (some command) repeats fill).2.submit = scheduler.submit := by
  have first : (made ++ old :: rest).findIdx? (fun job => !job.active) = some made.length := by
    rw [List.findIdx?_append, List.findIdx?_eq_none_iff.mpr fun job member => by
      simp [before job member]]
    simp [List.findIdx?_cons, free]
  unfold allocate
  rw [checked, jobs, first]
  refine ⟨{
    active := true
    id := scheduler.nextId
    command := command
    history := { serial := scheduler.issued.length, repeats := repeats } },
    rfl, rfl, rfl, ?_, rfl⟩
  dsimp only
  rw [List.set_append_right _ _ (Nat.le_refl _), Nat.sub_self]
  rfl

theorem schedule_taken {scheduler : Scheduler} {entry : Entry}
    (taken : entry.taken scheduler = true) :
    (entry.schedule scheduler).1 = .ok ∧ Placed scheduler (entry.schedule scheduler).2 entry := by
  simp only [Entry.taken, Bool.and_eq_true, decide_eq_true_eq] at taken
  obtain ⟨⟨bound, passes⟩, free⟩ := taken
  simp only [Entry.passes, Bool.and_eq_true, decide_eq_true_eq, Bool.not_eq_true'] at passes
  obtain ⟨⟨⟨interval, some⟩, short⟩, other⟩ := passes
  have checked := commandError_eq_none.mpr ⟨bound, some, short, other⟩
  obtain ⟨made, old, rest, jobs, before, idle⟩ := first_free free
  cases entry with
  | interval intervalMs remaining command =>
    obtain ⟨job, active, same, ok, after, submit⟩ := allocate_placed checked jobs before idle
      remaining fun job =>
        { job with kind := .interval, intervalMs := intervalMs, remaining := remaining }
    unfold Entry.schedule scheduleInterval
    dsimp only
    rw [if_neg (of_decide_eq_true interval)]
    refine ⟨ok, ⟨made, old, rest, _, jobs, before, idle, after, active, ?_⟩, submit⟩
    simp only [Job.entry, same]
    rfl
  | onState state command =>
    obtain ⟨job, active, same, ok, after, submit⟩ := allocate_placed checked jobs before idle 0
      fun job => { job with
        kind := .onStateEnter, state := state, intervalMs := 0, remaining := 0 }
    refine ⟨ok, ⟨made, old, rest, _, jobs, before, idle, after, active, ?_⟩, submit⟩
    simp only [Job.entry, same]
    rfl

end BallyOS.Jobs
