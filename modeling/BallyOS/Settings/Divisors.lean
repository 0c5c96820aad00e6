import BallyOS.Library.Products
import BallyOS.Library.Run
import BallyOS.Settings.RoundTrip

/-! Where the control code divides by a setting, and which texts make that a zero. Any
number that a field can hold is taken for it. -/
namespace BallyOS.Settings
open Library

def sampleMicros : Fin kTableCount := ⟨2, by decide⟩
def encoderPpr : Fin kTableCount := ⟨15, by decide⟩
def errorBlinkMs : Fin kTableCount := ⟨56, by decide⟩

/-- A value that is divided by. -/
inductive Divisor
  | integer (value : UInt32)
  | real (value : Binary32)

def Divisor.isZero : Divisor → Bool
  | integer value => value = 0
  | real value => value.isZero

/-- The LEDs that are set with their timeout, and what was divided by. -/
def blinkErrorLeds (data : SettingsData) (nowMs : UInt32) :
    List (Fin 4 × UInt32) × List Divisor :=
  let halfPeriodMs : UInt32 := data errorBlinkMs
  (if nowMs / halfPeriodMs % 2 ≠ 0 then []
    else (List.finRange 4).map fun led => (led, halfPeriodMs),
    [.integer halfPeriodMs])

/-- 0.000001f -/
def kMicro : Binary32 := .ofRatio false 1 1000000

/-- What `freq_ekf` divides by. -/
def freqEkf (data : SettingsData) : Divisor :=
  let micros : UInt32 := data sampleMicros
  .real ((Binary32.ofRatio false micros.toNat 1).mul kMicro)

/-- What the two speeds divide by. -/
def getVelocitiesFromEncoders (data : SettingsData) : List Divisor :=
  let ppr : Binary32 := data encoderPpr
  [.real ppr, freqEkf data, .real ppr, freqEkf data]

/-- No division by a setting is one by zero, whenever it is done. -/
def NoZeroDivisor (data : SettingsData) : Prop :=
  ∀ nowMs, ∀ divisor ∈ (blinkErrorLeds data nowMs).2 ++ getVelocitiesFromEncoders data,
    divisor.isZero = false

/-- The fields that are divided by. -/
def divisorFields : List (Fin kTableCount) := [sampleMicros, encoderPpr, errorBlinkMs]

def IsZero : (type : SettingType) → type.Value → Prop
  | .u32, value => value = 0
  | .float, value => value.isZero = true
  | _, _ => False

private theorem isZero_micros (micros : UInt32) :
    ((Binary32.ofRatio false micros.toNat 1).mul kMicro).isZero = true ↔ micros = 0 := by
  constructor
  · intro zero
    refine Classical.byContradiction fun some => ?_
    have positive : 0 < micros.toNat :=
      Nat.pos_of_ne_zero fun none => some (UInt32.toNat_inj.mp none)
    have whole := le_nearestUnits (by decide : 0 < 1)
      (Nat.le_trans positive (Nat.le_mul_of_pos_right _ (Nat.two_pow_pos 149)))
    have small : 2 ≤ nearestUnits 1 1000000 := by decide +kernel
    have large : 2 ^ 149 ≤ nearestUnits micros.toNat 1 * nearestUnits 1 1000000 := by
      have product := Nat.mul_le_mul_left (nearestUnits micros.toNat 1) small
      omega
    rw [kMicro, isZero_mul_large false false large] at zero
    exact Bool.false_ne_true zero
  · rintro rfl
    decide +kernel

private theorem isZero_integer (value : UInt32) : (Divisor.integer value).isZero = true ↔ value = 0
    :=
  decide_eq_true_iff

/-- What is divided by, each time anew. -/
theorem divisors_cases {data : SettingsData} {nowMs : UInt32} {divisor : Divisor} :
    divisor ∈ (blinkErrorLeds data nowMs).2 ++ getVelocitiesFromEncoders data ↔
      divisor = freqEkf data ∨ divisor = .real (data encoderPpr) ∨
        divisor = .integer (data errorBlinkMs) := by
  simp only [blinkErrorLeds, getVelocitiesFromEncoders, List.cons_append, List.nil_append,
    List.mem_cons, List.not_mem_nil, or_false]
  tauto

/-- A division is by zero when its field is a zero. -/
theorem noZeroDivisor_iff (data : SettingsData) :
    NoZeroDivisor data ↔ ∀ i ∈ divisorFields, ¬ IsZero (row i).type (data i) := by
  have micros : (freqEkf data).isZero = true ↔
      IsZero (row sampleMicros).type (data sampleMicros) := isZero_micros (data sampleMicros)
  have ppr : (Divisor.real (data encoderPpr)).isZero = true ↔
      IsZero (row encoderPpr).type (data encoderPpr) := Iff.rfl
  have blink : (Divisor.integer (data errorBlinkMs)).isZero = true ↔
      IsZero (row errorBlinkMs).type (data errorBlinkMs) := isZero_integer (data errorBlinkMs)
  unfold NoZeroDivisor
  simp only [divisors_cases, divisorFields, List.mem_cons, List.not_mem_nil, or_false]
  constructor
  · rintro apart i (rfl | rfl | rfl) zero
    · exact Bool.eq_false_iff.mp (apart 0 _ (.inl rfl)) (micros.mpr zero)
    · exact Bool.eq_false_iff.mp (apart 0 _ (.inr (.inl rfl))) (ppr.mpr zero)
    · exact Bool.eq_false_iff.mp (apart 0 _ (.inr (.inr rfl))) (blink.mpr zero)
  · rintro apart nowMs divisor (rfl | rfl | rfl)
    · exact Bool.eq_false_iff.mpr fun zero => apart _ (.inl rfl) (micros.mp zero)
    · exact Bool.eq_false_iff.mpr fun zero => apart _ (.inr (.inl rfl)) (ppr.mp zero)
    · exact Bool.eq_false_iff.mpr fun zero => apart _ (.inr (.inr rfl)) (blink.mp zero)

/-! ### What a file gives a field -/

/-- The module that lines after this one are about. -/
def lineModule (current line : Text) : Text :=
  match line.dropWhile fun c => c = ' ' || c = '\t' with
  | [] => current
  | c :: rest =>
    if c = '[' then
      let name := rest.takeWhile (· ≠ ']')
      if ']' ∈ rest ∧ name ≠ [] then name.take (kMaxModuleNameLength - 1) else current
    else current

/-- The key and the value of a line. -/
def lineEntry (line : Text) : Option (Text × Text) :=
  match line.dropWhile fun c => c = ' ' || c = '\t' with
  | [] => none
  | c :: rest =>
    if c = '[' then none
    else if c = '#' ∨ c = ';' then none
    else if '=' ∈ c :: rest then
      some ((c :: rest).takeWhile (· ≠ '='), ((c :: rest).dropWhile (· ≠ '=')).drop 1)
    else none

/-- The value that a text gives a field, if it is the field's and taken. -/
def given (validGpio : Int → Bool) (module key value : Text) (i : Fin kTableCount) :
    Option (row i).type.Value :=
  if find module key = some i then parseInto validGpio (row i).type value else none

/-- The value that the last of the lines to give the field one gives it. -/
def lastGiven (validGpio : Int → Bool) (i : Fin kTableCount) :
    Text → List Text → Option (row i).type.Value
  | _, [] => none
  | current, line :: rest =>
    (lastGiven validGpio i (lineModule current line) rest).or
      ((lineEntry line).bind fun entry => given validGpio current entry.1 entry.2 i)

/-- The settings once a text is offered to a field. -/
def offer (validGpio : Int → Bool) (data : SettingsData) (module key value : Text) :
    SettingsData :=
  match find module key with
  | some i =>
    match parseInto validGpio (row i).type value with
    | some parsed => Function.update data i parsed
    | none => data
  | none => data

private theorem offer_given (validGpio : Int → Bool) (data : SettingsData) (module key value : Text)
    (i : Fin kTableCount) :
    offer validGpio data module key value i =
      (given validGpio module key value i).getD (data i) := by
  unfold offer given
  cases find module key with
  | none => rfl
  | some j =>
    by_cases here : j = i
    · subst here
      rw [if_pos rfl]
      dsimp only
      cases parseInto validGpio (row j).type value with
      | none => rfl
      | some parsed => exact Function.update_self ..
    · rw [if_neg fun same => here (Option.some.inj same)]
      dsimp only
      cases parseInto validGpio (row j).type value with
      | none => rfl
      | some parsed => exact Function.update_of_ne (Ne.symm here) ..

private theorem set_offer (validGpio : Int → Bool) (data : SettingsData) (module key value : Text) :
    (set validGpio data module key value).2 =
      offer validGpio data (cString module) (cString key) value := by
  unfold set offer
  cases find (cString module) (cString key) with
  | none => rfl
  | some i =>
    dsimp only
    cases parseInto validGpio (row i).type value with
    | none => rfl
    | some parsed => rfl

private theorem parseEntry_offer (validGpio : Int → Bool) (state : ParseState) (key value : Text) :
    (parseEntry validGpio state key value).currentModule = state.currentModule ∧
      (parseEntry validGpio state key value).data =
        offer validGpio state.data state.currentModule key value := by
  unfold parseEntry offer
  cases find state.currentModule key with
  | none => exact ⟨rfl, rfl⟩
  | some i =>
    dsimp only
    cases parseInto validGpio (row i).type value with
    | none => exact ⟨rfl, rfl⟩
    | some parsed => exact ⟨rfl, rfl⟩

private theorem parseLine_given (validGpio : Int → Bool) (state : ParseState) (line : Text)
    (i : Fin kTableCount) :
    (parseLine validGpio state line).currentModule = lineModule state.currentModule line ∧
      (parseLine validGpio state line).data i =
        ((lineEntry line).bind fun entry =>
          given validGpio state.currentModule entry.1 entry.2 i).getD (state.data i) := by
  unfold parseLine lineModule lineEntry
  cases line.dropWhile fun c => c = ' ' || c = '\t' with
  | nil => exact ⟨rfl, rfl⟩
  | cons c rest =>
    dsimp only
    by_cases heading : c = '['
    · simp only [if_pos heading]
      split
      · exact ⟨rfl, rfl⟩
      · exact ⟨rfl, rfl⟩
    · simp only [if_neg heading]
      split
      · exact ⟨rfl, rfl⟩
      · split
        · obtain ⟨module, data⟩ := parseEntry_offer validGpio state
            ((c :: rest).takeWhile (· ≠ '=')) (((c :: rest).dropWhile (· ≠ '=')).drop 1)
          exact ⟨module, (congrFun data i).trans (offer_given validGpio _ _ _ _ i)⟩
        · exact ⟨rfl, rfl⟩

/-- A file leaves a field what its last line for it gave, or as it was. -/
theorem parseLines_given (validGpio : Int → Bool) (lines : List Text) (state : ParseState)
    (i : Fin kTableCount) :
    (lines.foldl (parseLine validGpio) state).data i =
      (lastGiven validGpio i state.currentModule lines).getD (state.data i) := by
  induction lines generalizing state with
  | nil => rfl
  | cons line rest ih =>
    obtain ⟨module, value⟩ := parseLine_given validGpio state line i
    rw [List.foldl_cons, ih, module, value, lastGiven]
    cases lastGiven validGpio i (lineModule state.currentModule line) rest with
    | none => rfl
    | some last => rfl

/-! ### Runs of `set` and `load` -/

inductive Event
  | set (module key value : Text)
  /-- The card and whether the file can be read; what a write would come to. -/
  | load (card : SDCard) (readable : Bool) (answer : WriteAnswer)

def step (validGpio : Int → Bool) : Machine RobotSettings Event
  | settings, .set module key value =>
    some { settings with data := (set validGpio settings.data module key value).2 }
  | settings, .load card readable answer =>
    some (load validGpio settings card readable answer).2.2.1

/-- What the event gives a field. -/
def Event.gives (validGpio : Int → Bool) (i : Fin kTableCount) :
    Event → Option (row i).type.Value
  | .set module key value => given validGpio (cString module) (cString key) value i
  | .load card readable _ =>
    if card.mounted = false then none
    else (card.readFile (ROBOT_SETTINGS_FILE_MAX_BYTES - 1) readable).bind fun buffer =>
      lastGiven validGpio i [] (tokens isLineEnd (cString buffer))

/-- No field that is divided by is given a zero. -/
def GivesNoZero (validGpio : Int → Bool) (_ : RobotSettings) (event : Event) : Prop :=
  ∀ i ∈ divisorFields, ∀ value, event.gives validGpio i = some value →
    ¬ IsZero (row i).type value

private theorem save_data (settings : RobotSettings) (card : SDCard) (answer : WriteAnswer) :
    (save settings card answer).2.1.data = settings.data := by
  unfold save
  split
  · rfl
  · dsimp only
    split
    · rfl
    · rfl

private theorem step_gives {validGpio : Int → Bool} {settings next : RobotSettings} {event : Event}
    (stepped : step validGpio settings event = some next) (i : Fin kTableCount) :
    next.data i = (event.gives validGpio i).getD (settings.data i) := by
  cases event with
  | set module key value =>
    cases stepped
    exact (congrFun (set_offer validGpio settings.data module key value) i).trans
      (offer_given validGpio _ _ _ _ i)
  | load card readable answer =>
    cases stepped
    dsimp only [Event.gives]
    unfold load
    split
    · rfl
    · split
      · rename_i buffer read
        rw [read]
        exact parseLines_given validGpio _ _ i
      · rename_i unread
        rw [unread]
        exact congrFun (save_data settings card answer) i

private theorem factory_noZeroDivisor : NoZeroDivisor initial := by
  refine (noZeroDivisor_iff initial).mpr fun i member => ?_
  simp only [divisorFields, List.mem_cons, List.not_mem_nil, or_false] at member
  rcases member with rfl | rfl | rfl
  · exact (by decide : ¬ (1000 : UInt32) = 0)
  · exact (by decide +kernel : ¬ (Binary32.ofRatio false 70 1).isZero = true)
  · exact (by decide : ¬ (250 : UInt32) = 0)

/-- A step from settings without a zero leaves none exactly if it gives none. -/
theorem noZeroDivisor_step_iff {validGpio : Int → Bool} {settings : RobotSettings} {event : Event}
    (before : NoZeroDivisor settings.data) :
    (∀ next, step validGpio settings event = some next → NoZeroDivisor next.data) ↔
      GivesNoZero validGpio settings event := by
  constructor
  · intro kept i member value gives zero
    obtain ⟨next, stepped⟩ : ∃ next, step validGpio settings event = some next := by
      cases event with
      | set module key value => exact ⟨_, rfl⟩
      | load card readable answer => exact ⟨_, rfl⟩
    have after := step_gives stepped i
    rw [gives, Option.getD_some] at after
    exact (noZeroDivisor_iff next.data).mp (kept next stepped) i member (after ▸ zero)
  · intro gives next stepped
    refine (noZeroDivisor_iff next.data).mpr fun i member => ?_
    rw [step_gives stepped i]
    cases given : event.gives validGpio i with
    | none => exact (noZeroDivisor_iff settings.data).mp before i member
    | some value => exact gives i member value given

/-- In every run of `set` and `load` from the factory settings, no setting is divided by
while it is zero, exactly if none of the texts gives such a field a zero. -/
theorem no_zero_divisor_iff (validGpio : Int → Bool) (events : List Event) :
    Along (step validGpio)
        (fun settings event => ∀ next, step validGpio settings event = some next →
          NoZeroDivisor next.data) {} events ↔
      Along (step validGpio) (GivesNoZero validGpio) {} events :=
  @along_keeps_iff RobotSettings Event {} (step validGpio) (GivesNoZero validGpio) (fun _ => True)
    (fun settings => NoZeroDivisor settings.data) (fun _ _ => trivial)
    (fun _ before => noZeroDivisor_step_iff before) trivial factory_noZeroDivisor events

/-- settings -set error error_blink_ms 0 -/
def noBlinkPeriod : List Event := [.set "error".toList "error_blink_ms".toList "0".toList]

theorem blinks_by_zero : ¬ ∀ (events : List Event) (settings : RobotSettings),
    run (step gpioOfChip) {} events = some settings → NoZeroDivisor settings.data := by
  intro every
  have apart := every noBlinkPeriod _ rfl
  have zero : (Divisor.integer ((set gpioOfChip initial "error".toList
      "error_blink_ms".toList "0".toList).2 errorBlinkMs)).isZero = true := by
    decide +kernel
  exact Bool.eq_false_iff.mp (apart 0 _ (divisors_cases.mpr (.inr (.inr rfl)))) zero

end BallyOS.Settings
