import BallyOS.Jobs.File

/-! Jobs that were saved are loaded again: all of them but those for a single firing. -/
namespace BallyOS.Jobs
open Library

/-- A job whose command is one line, and whose state, if it has one, is a state. No command has
a NUL: it is a C string. -/
structure Savable (job : Job) : Prop where
  single : ∀ c ∈ job.command, c ≠ 10 ∧ c ≠ 13 ∧ c ≠ 0
  valid : job.kind = .onStateEnter → verifyState job.state = true

/-! ### A line -/

def kJobLineBytes : Nat := 128

private theorem line_length {job : Job} (short : job.command.length ≤ kMaxCommandLength) :
    job.line.length ≤ kJobLineBytes := by
  have interval := printDecimal_length job.intervalMs
  have remaining := printDecimal_length job.remaining
  have name := stateToString_length job.state
  unfold kMaxCommandLength at short
  unfold Job.line kJobLineBytes
  cases job.kind <;>
    simp only [List.length_append, List.length_cons, List.length_nil, interval_length,
      on_state_length] <;>
    omega

/-- A text in one line, without a NUL. -/
def Single (text : List UInt8) : Prop := ∀ c ∈ text, c ≠ 10 ∧ c ≠ 13 ∧ c ≠ 0

private theorem single_of_high {text : List UInt8} (high : ∀ c ∈ text, 44 ≤ c) : Single text := by
  intro c member
  have low : 44 ≤ c.toNat := UInt8.le_iff_toNat_le.mp (high c member)
  refine ⟨?_, ?_, ?_⟩ <;>
    · rintro rfl
      exact absurd low (by decide)

private theorem single_append {front back : List UInt8} (first : Single front)
    (second : Single back) :
    Single (front ++ back) := by
  intro c member
  obtain before | after := List.mem_append.mp member
  · exact first c before
  · exact second c after

private theorem single_cons {c : UInt8} {text : List UInt8} (first : 44 ≤ c) (rest : Single text) :
    Single (c :: text) :=
  single_append (single_of_high fun _ member => List.mem_singleton.mp member ▸ first) rest

private theorem high_print (value : UInt32) : ∀ c ∈ printDecimal value.toNat, 48 ≤ c := by
  intro c member
  have digit := (saysDecimal_print value).digits c member
  exact (of_decide_eq_true digit).1

private theorem comma_of_high {text : List UInt8} (high : ∀ c ∈ text, 48 ≤ c) : (44 : UInt8) ∉ text
    :=
  fun member => absurd (high 44 member) (by decide)

/-- The line of a job is its fields, which are read back as what the file keeps of it. -/
theorem line_fields {job : Job} {entry : Entry} (savable : Savable job)
    (kept : job.entry = some entry) :
    ∃ found : Fields, job.line = found.text ++ [10] ∧ found.Parted ∧ found.entry = entry ∧
      Single found.text := by
  have print (value : UInt32) : Single (printDecimal value.toNat) :=
    single_of_high fun c member => UInt8.le_trans (by decide) (high_print value c member)
  have name : Single (stateToString job.state) :=
    single_of_high fun c member => UInt8.le_trans (by decide) (stateToString_plain _ c member)
  have word {text : List UInt8} (high : text.all (44 ≤ ·) = true) : Single text :=
    single_of_high fun c member => of_decide_eq_true (List.all_eq_true.mp high c member)
  unfold Job.entry at kept
  cases kind : job.kind with
  | interval =>
    rw [kind] at kept
    cases kept
    refine ⟨.interval (printDecimal job.intervalMs.toNat) (printDecimal job.remaining.toNat)
      job.command, ?_, ⟨comma_of_high (high_print _), comma_of_high (high_print _)⟩, ?_, ?_⟩
    · rw [Job.line, kind]
      rfl
    · rw [Fields.entry, (saysDecimal_iff.mp (saysDecimal_print _)).2,
        (saysDecimal_iff.mp (saysDecimal_print _)).2]
    · refine single_append (word (by decide)) (single_append (print _) (single_cons (by decide) ?_))
      exact single_append (print _) (single_cons (by decide) savable.single)
  | onStateEnter =>
    rw [kind] at kept
    cases kept
    refine ⟨.onState (stateToString job.state) job.command, ?_,
      comma_of_high (stateToString_plain _), ?_, ?_⟩
    · rw [Job.line, kind]
      rfl
    · rw [Fields.entry, stateFromString_toString (savable.valid kind)]
    · exact single_append (word (by decide)) (single_append name (single_cons (by decide)
        savable.single))
  | once =>
    rw [kind] at kept
    cases kept

private theorem line_once {job : Job} (none : job.entry = none) : job.kind = .once ∧ job.line = []
    := by
  unfold Job.entry at none
  cases kind : job.kind with
  | interval =>
    rw [kind] at none
    cases none
  | onStateEnter =>
    rw [kind] at none
    cases none
  | once => exact ⟨rfl, by rw [Job.line, kind]⟩

/-! ### All lines -/

/-- Eight lines fit the buffer. -/
theorem saveLines_whole {jobs : List Job} (buffer : List UInt8)
    (short : ∀ job ∈ jobs, job.command.length ≤ kMaxCommandLength)
    (room : buffer.length + kJobLineBytes * jobs.length ≤ kMaxJobs * kJobLineBytes) :
    saveLines buffer jobs = buffer ++ jobs.flatMap Job.line := by
  induction jobs generalizing buffer with
  | nil => simp [saveLines]
  | cons job rest ih =>
    have line := line_length (short job List.mem_cons_self)
    have others : ∀ other ∈ rest, other.command.length ≤ kMaxCommandLength :=
      fun other member => short other (List.mem_cons_of_mem job member)
    simp only [List.length_cons, kJobLineBytes, kMaxJobs] at room line
    rw [saveLines, List.flatMap_cons]
    split
    · rename_i once
      have empty : job.line = [] := by rw [Job.line, once]
      rw [ih buffer others (by simp only [kJobLineBytes, kMaxJobs]; omega), empty]
      rfl
    · have fits : ¬ job.line.length ≥ kJobSaveBufferBytes - buffer.length := by
        simp only [kJobSaveBufferBytes, kMaxJobs, kMaxCommandLength]
        omega
      rw [if_neg fits, ih (buffer ++ job.line) others (by
        simp only [List.length_append, kJobLineBytes, kMaxJobs]
        omega), List.append_assoc]

private theorem lines_length {jobs : List Job}
    (short : ∀ job ∈ jobs, job.command.length ≤ kMaxCommandLength) :
    (jobs.flatMap Job.line).length ≤ kJobLineBytes * jobs.length := by
  induction jobs with
  | nil => exact Nat.zero_le _
  | cons job rest ih =>
    have line := line_length (short job List.mem_cons_self)
    have others := ih fun other member => short other (List.mem_cons_of_mem job member)
    rw [List.flatMap_cons, List.length_append, List.length_cons, Nat.mul_succ]
    omega

/-- A line that is read as an entry. -/
def Reads (line : List UInt8) (entry : Entry) : Prop :=
  ∃ found : Fields, fields (untilNul line) = some found ∧ found.entry = entry

private theorem lines_flatMap {jobs : List Job} (savable : ∀ job ∈ jobs, Savable job) :
    List.Forall₂ Reads (lines (jobs.flatMap Job.line)) (jobs.filterMap Job.entry) := by
  induction jobs with
  | nil => exact .nil
  | cons job rest ih =>
    have others := ih fun other member => savable other (List.mem_cons_of_mem job member)
    rw [List.flatMap_cons]
    cases kept : job.entry with
    | none =>
      rw [(line_once kept).2, List.filterMap_cons_none kept]
      exact others
    | some entry =>
      obtain ⟨found, line, parted, entries, single⟩ :=
        line_fields (savable job List.mem_cons_self) kept
      have clean : ∀ c ∈ found.text, isLineEnd c = false := by
        intro c member
        have plain := single c member
        simp [isLineEnd, plain.1, plain.2.1]
      have solid : found.text ≠ [] := by
        cases found with
        | interval => exact List.append_ne_nil_of_left_ne_nil (by decide) _
        | onState => exact List.append_ne_nil_of_left_ne_nil (by decide) _
      have first : lines (job.line ++ rest.flatMap Job.line) =
          found.text :: lines (rest.flatMap Job.line) := by
        rw [line, List.append_assoc]
        exact tokens_line clean solid (by decide) _
      rw [first, List.filterMap_cons_some kept]
      refine .cons ⟨found, ?_, entries⟩ others
      rw [untilNul_of_none fun member => (single 0 member).2.2 rfl]
      exact fields_eq_some.mpr ⟨rfl, parted⟩

/-! ### Loading into an empty table -/

/-- The jobs at the front of the table, with nothing behind them. -/
structure Packed (scheduler : Scheduler) (made : List Job) : Prop where
  packed : ∃ idle, scheduler.jobs = made ++ idle ∧ ∀ job ∈ idle, job.active = false
  active : ∀ job ∈ made, job.active = true

private theorem packed_front {scheduler : Scheduler} {made idle : List Job}
    (jobs : scheduler.jobs = made ++ idle) (active : ∀ job ∈ made, job.active = true)
    (first : ∀ job ∈ idle.head?, job.active = false) :
    scheduler.jobs.takeWhile Job.active = made ∧ scheduler.jobs.dropWhile Job.active = idle := by
  rw [jobs, List.takeWhile_append_of_pos active, List.dropWhile_append_of_pos active]
  cases idle with
  | nil => exact ⟨List.append_nil _, rfl⟩
  | cons job rest =>
    have free : ¬ job.active = true := by simp [first job rfl]
    rw [List.takeWhile_cons_of_neg free, List.dropWhile_cons_of_neg free]
    exact ⟨List.append_nil _, rfl⟩

private theorem packed_filter {scheduler : Scheduler} {made : List Job}
    (packed : Packed scheduler made) :
    scheduler.jobs.filter Job.active = made := by
  obtain ⟨⟨idle, jobs, free⟩, active⟩ := packed
  rw [jobs, List.filter_append, List.filter_eq_self.mpr active,
    List.filter_eq_nil_iff.mpr fun job member => by simp [free job member], List.append_nil]

private theorem packed_placed {scheduler next : Scheduler} {made : List Job} {entry : Entry}
    (packed : Packed scheduler made) (placed : Placed scheduler next entry) :
    ∃ job, job.entry = some entry ∧ Packed next (made ++ [job]) := by
  obtain ⟨⟨idle, jobs, free⟩, active⟩ := packed
  obtain ⟨before, old, rest, job, whole, front, open_, after, started, kept⟩ := placed.placed
  have here := packed_front jobs active fun job member => free job (List.mem_of_head? member)
  have there := packed_front whole front fun job member => by
    cases member
    exact open_
  obtain rfl : made = before := here.1.symm.trans there.1
  obtain rfl : idle = old :: rest := here.2.symm.trans there.2
  refine ⟨job, kept, ⟨rest, by rw [after]; simp, fun other member =>
    free other (List.mem_cons_of_mem old member)⟩, fun other member => ?_⟩
  obtain made | same := List.mem_append.mp member
  · exact active other made
  · rw [List.mem_singleton.mp same]
    exact started

private theorem loadLines_packed {texts : List (List UInt8)} {entries : List Entry}
    {scheduler : Scheduler} {made : List Job} (reads : List.Forall₂ Reads texts entries)
    (packed : Packed scheduler made) (bound : scheduler.submit = true)
    (passes : ∀ entry ∈ entries, entry.passes = true)
    (room : made.length + entries.length ≤ scheduler.jobs.length) :
    ∃ more, Packed (loadLines scheduler texts).2 (made ++ more) ∧
      more.map Job.entry = entries.map some := by
  induction reads generalizing scheduler made with
  | nil => exact ⟨[], by rwa [List.append_nil], rfl⟩
  | @cons text entry texts entries read _ ih =>
    obtain ⟨found, parted, rfl⟩ := read
    have spare : scheduler.freeSlots ≠ 0 := by
      obtain ⟨⟨idle, jobs, free⟩, active⟩ := packed
      rw [jobs, List.length_append, List.length_cons] at room
      have some : idle ≠ [] := by
        rintro rfl
        simp only [List.length_nil] at room
        omega
      obtain ⟨job, rest, rfl⟩ := List.exists_cons_of_ne_nil some
      intro none
      have idle := List.countP_eq_zero.mp none job (by simp [jobs])
      simp [free job List.mem_cons_self] at idle
    have taken : found.entry.taken scheduler = true := by
      simp [Entry.taken, bound, passes found.entry List.mem_cons_self, spare]
    obtain ⟨-, placed⟩ := schedule_taken taken
    obtain ⟨job, kept, after⟩ := packed_placed packed placed
    have loaded : (loadLine scheduler text).2 = (found.entry.schedule scheduler).2 := by
      rw [loadLine, parted]
    have slots : (found.entry.schedule scheduler).2.jobs.length = scheduler.jobs.length := by
      obtain ⟨before, old, rest, job, whole, -, -, after, -, -⟩ := placed.placed
      rw [whole, after, List.length_append, List.length_append]
      rfl
    obtain ⟨more, packedMore, entriesMore⟩ := ih after (placed.submit.trans bound)
      (fun entry member => passes entry (List.mem_cons_of_mem _ member)) (by
        rw [slots, List.length_append]
        simp only [List.length_cons, List.length_nil] at room ⊢
        omega)
    refine ⟨job :: more, ?_, ?_⟩
    · rw [List.append_assoc, ← loaded] at packedMore
      exact packedMore
    · rw [List.map_cons, List.map_cons, kept, entriesMore]

private theorem passes_entry {job : Job} {entry : Entry} (sane : Sane job)
    (active : job.active = true)
    (kept : job.entry = some entry) : entry.passes = true := by
  obtain ⟨some, short, other⟩ := sane.command active
  unfold Job.entry at kept
  cases kind : job.kind with
  | interval =>
    rw [kind] at kept
    cases kept
    have interval := sane.interval active (by simp [kind])
    simp [Entry.passes, Entry.ticks, Entry.command, interval, some, short, other]
  | onStateEnter =>
    rw [kind] at kept
    cases kept
    simp [Entry.passes, Entry.ticks, Entry.command, some, short, other]
  | once =>
    rw [kind] at kept
    cases kept

/-- Whatever was scheduled, polled and cancelled: if the save succeeds, the file has the line of
every job that has one, and loading it into a table with no job makes exactly the jobs that the
file keeps, in order. -/
theorem saved_jobs_load (events : List Event) (scheduler : Scheduler)
    (ran : run step {} events = some scheduler)
    (savable : ∀ job ∈ scheduler.jobs, job.active = true → Savable job)
    (card : SDCard) (written : Bool) (left : Option (List UInt8))
    (saved : (saveJobs scheduler card written left).1 = true)
    (others : List Event) (empty : Scheduler) (began : run step {} others = some empty)
    (bound : empty.submit = true) (none : ∀ job ∈ empty.jobs, job.active = false) :
    let after := (saveJobs scheduler card written left).2
    let loaded := loadJobs after true empty
    after.jobSaveFile = some ((scheduler.jobs.filter Job.active).flatMap Job.line) ∧
      loaded.done = true ∧
      (loaded.scheduler.jobs.filter Job.active).map Job.entry =
        ((scheduler.jobs.filter Job.active).filterMap Job.entry).map some := by
  have table := saneTable_run ran
  have active : ∀ job ∈ scheduler.jobs.filter Job.active,
      job ∈ scheduler.jobs ∧ job.active = true := fun job member => List.mem_filter.mp member
  have count : (scheduler.jobs.filter Job.active).length ≤ kMaxJobs :=
    table.slots ▸ List.length_filter_le ..
  have short : ∀ job ∈ scheduler.jobs.filter Job.active,
      job.command.length ≤ kMaxCommandLength := fun job member =>
    ((table.sane job (active job member).1).command (active job member).2).2.1
  have whole : saveLines [] (scheduler.jobs.filter Job.active) =
      (scheduler.jobs.filter Job.active).flatMap Job.line := by
    apply saveLines_whole [] short
    simp only [List.length_nil, kJobLineBytes]
    omega
  have small : ((scheduler.jobs.filter Job.active).flatMap Job.line).length ≤
      kJobSaveBufferBytes := by
    apply Nat.le_trans (lines_length short)
    simp only [kJobLineBytes, kJobSaveBufferBytes, kMaxJobs, kMaxCommandLength] at count ⊢
    omega
  obtain ⟨mounted, wrote⟩ : card.mounted = true ∧ written = true := by
    unfold saveJobs at saved
    cases mounted : card.mounted with
    | false => simp [mounted] at saved
    | true => exact ⟨rfl, by simpa [mounted] using saved⟩
  have file : (saveJobs scheduler card written left).2 = { card with
      jobSaveFile := some ((scheduler.jobs.filter Job.active).flatMap Job.line) } := by
    simp [saveJobs, mounted, wrote, whole]
  have reads := lines_flatMap fun job member => savable job (active job member).1
    (active job member).2
  have passes : ∀ entry ∈ (scheduler.jobs.filter Job.active).filterMap Job.entry,
      entry.passes = true := by
    intro entry member
    obtain ⟨job, inside, kept⟩ := List.mem_filterMap.mp member
    exact passes_entry (table.sane job (active job inside).1) (active job inside).2 kept
  have room : ([] : List Job).length +
      ((scheduler.jobs.filter Job.active).filterMap Job.entry).length ≤ empty.jobs.length := by
    rw [List.length_nil, Nat.zero_add, (saneTable_run began).slots]
    exact Nat.le_trans (List.length_filterMap_le ..) count
  have nothing : Packed empty [] := ⟨⟨empty.jobs, rfl, none⟩, nofun⟩
  obtain ⟨more, packed, entries⟩ := loadLines_packed reads nothing bound passes room
  dsimp only
  rw [file]
  simp only [loadJobs, mounted, List.take_of_length_le small]
  refine ⟨trivial, trivial, ?_⟩
  rw [packed_filter packed]
  exact entries

/-- Two timed jobs, one with commas in its command, one for a state, and one for a single
firing between them. -/
def fourJobs : List Event :=
  [.configure true, .scheduleInterval 250 0 (some (ascii "led -set 1,2,3")),
    .scheduleOnce 100 (some (ascii "beep")), .scheduleOnState 5 (some (ascii "log")),
    .scheduleInterval 4294967295 7 (some (ascii "a"))]

theorem saved_jobs_load_four :
    let scheduler := (run step {} fourJobs).getD {}
    let card := (saveJobs scheduler { mounted := true } true none).2
    ((loadJobs card true { submit := true }).scheduler.jobs.filter Job.active).map Job.entry =
      [some (.interval 250 0 (ascii "led -set 1,2,3")), some (.onState 5 (ascii "log")),
        some (.interval 4294967295 7 (ascii "a"))] := by
  have plain : ((run step {} fourJobs).getD {}).jobs.all (fun job =>
      job.command.all (fun c => c ≠ 10 ∧ c ≠ 13 ∧ c ≠ 0) &&
        (job.kind ≠ .onStateEnter || verifyState job.state)) = true := by decide +kernel
  have savable : ∀ job ∈ ((run step {} fourJobs).getD {}).jobs, job.active = true →
      Savable job := by
    intro job member _
    have both := List.all_eq_true.mp plain job member
    rw [Bool.and_eq_true, Bool.or_eq_true, decide_eq_true_eq, List.all_eq_true] at both
    exact ⟨fun c inside => of_decide_eq_true (both.1 c inside),
      fun onState => both.2.resolve_left (not_not_intro onState)⟩
  have free : ∀ job ∈ ({ submit := true } : Scheduler).jobs, job.active = false := by
    intro job member
    rw [List.eq_of_mem_replicate member]
  have loaded := saved_jobs_load fourJobs _ rfl savable { mounted := true } true none rfl
    [.configure true] { submit := true } rfl rfl free
  exact loaded.2.2.trans (by decide +kernel)

end BallyOS.Jobs
