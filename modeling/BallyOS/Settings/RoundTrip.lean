import BallyOS.Settings.Fields

/-! Whether settings that were saved are loaded again as they were. They are
exactly when each string fits a line and each float is the nearest to its six
places. -/
namespace BallyOS.Settings
open Library

/-- The characters of a module's or a key's name. -/
def isNameChar (c : Char) : Bool := c.isAlphanum || c = '_'

private theorem kTable_named : ∀ entry ∈ kTable, entry.module ≠ [] ∧
    entry.module.length < kMaxModuleNameLength ∧ entry.key ≠ [] ∧
    entry.module.all isNameChar = true ∧ entry.key.all isNameChar = true := by
  decide +kernel

private theorem kTable_unique : (kTable.map fun entry => (entry.module, entry.key)).Nodup := by
  decide +kernel

private theorem row_named (i : Fin kTableCount) : (row i).module ≠ [] ∧
    (row i).module.length < kMaxModuleNameLength ∧ (row i).key ≠ [] ∧
    (∀ c ∈ (row i).module, isNameChar c = true) ∧ ∀ c ∈ (row i).key, isNameChar c = true := by
  simpa only [List.all_eq_true] using kTable_named (row i) (List.get_mem kTable i)

private theorem row_unique (module : (row i).module = (row j).module)
    (key : (row i).key = (row j).key) :
    i = j := by
  have within : ∀ k : Fin kTableCount,
      k.val < (kTable.map fun entry => (entry.module, entry.key)).length := by
    intro k
    rw [List.length_map]
    exact k.isLt
  have same : (kTable.map fun entry => (entry.module, entry.key)).get ⟨i, within i⟩ =
      (kTable.map fun entry => (entry.module, entry.key)).get ⟨j, within j⟩ := by
    simp only [List.get_eq_getElem, List.getElem_map]
    exact Prod.ext module key
  have index := List.nodup_iff_injective_get.mp kTable_unique same
  exact Fin.ext (Fin.mk.inj index)

private theorem find_row (i : Fin kTableCount) : find (row i).module (row i).key = some i := by
  unfold find
  cases found : (List.finRange kTableCount).find? fun j =>
      decide ((row j).module = (row i).module ∧ (row j).key = (row i).key) with
  | none =>
    have missing := List.find?_eq_none.mp found i (List.mem_finRange i)
    simp at missing
  | some j =>
    have both := List.find?_some found
    simp only [decide_eq_true_eq] at both
    rw [row_unique both.1 both.2]

private theorem plain_of_isNameChar {c : Char} (name : isNameChar c = true) : Plain c := by
  refine ⟨?_, ?_, ?_⟩ <;>
    · rintro rfl
      exact absurd name (by decide)

private theorem isLineEnd_of_plain {c : Char} (plain : Plain c) : isLineEnd c = false := by
  simp [isLineEnd, plain.1, plain.2.1]

/-- A heading makes its module the current one. -/
theorem parseLine_heading (validGpio : Int → Bool) (state : ParseState) (i : Fin kTableCount) :
    parseLine validGpio state ('[' :: (row i).module ++ [']']) =
      { state with currentModule := (row i).module } := by
  obtain ⟨solid, short, _, named, _⟩ := row_named i
  have inside : ((row i).module ++ [']']).takeWhile (· ≠ ']') = (row i).module := by
    rw [List.takeWhile_append_of_pos fun c member => ?_, List.takeWhile_cons_of_neg (by decide),
      List.append_nil]
    apply decide_eq_true
    rintro rfl
    exact absurd (named _ member) (by decide)
  unfold parseLine
  rw [List.cons_append, List.dropWhile_cons_of_neg (by decide)]
  dsimp only
  rw [if_pos rfl, inside, if_pos ⟨by simp, solid⟩,
    List.take_of_length_le (Nat.le_sub_one_of_lt short)]

/-- A line with a name, `=` and a value is an entry. -/
theorem parseLine_entry (validGpio : Int → Bool) (state : ParseState) (i : Fin kTableCount)
    (value : Text) :
    parseLine validGpio state ((row i).key ++ '=' :: value) =
      parseEntry validGpio state (row i).key value := by
  obtain ⟨_, _, solid, _, named⟩ := row_named i
  have front : ((row i).key ++ '=' :: value).takeWhile (· ≠ '=') = (row i).key := by
    rw [List.takeWhile_append_of_pos fun c member => ?_, List.takeWhile_cons_of_neg (by decide),
      List.append_nil]
    apply decide_eq_true
    rintro rfl
    exact absurd (named _ member) (by decide)
  have back : ((row i).key ++ '=' :: value).dropWhile (· ≠ '=') = '=' :: value := by
    rw [List.dropWhile_append_of_pos fun c member => ?_, List.dropWhile_cons_of_neg (by decide)]
    apply decide_eq_true
    rintro rfl
    exact absurd (named _ member) (by decide)
  cases key : (row i).key with
  | nil => exact absurd key solid
  | cons c rest =>
    rw [key] at front back named
    have name := named c List.mem_cons_self
    have other : ∀ d : Char, isNameChar d = false → c ≠ d := by
      rintro d none rfl
      rw [name] at none
      contradiction
    unfold parseLine
    rw [List.cons_append, List.dropWhile_cons_of_neg
      (by simp [other ' ' (by decide), other '\t' (by decide)])]
    dsimp only
    rw [List.cons_append] at front back
    rw [if_neg (other '[' (by decide)),
      if_neg (by simp [other '#' (by decide), other ';' (by decide)]), if_pos (by simp), front,
      back]
    rfl

private theorem parseEntry_row {validGpio : Int → Bool} {state : ParseState} {i : Fin kTableCount}
    {read : (row i).type.Value} (current : state.currentModule = (row i).module)
    (reads : parseInto validGpio (row i).type value = some read) :
    parseEntry validGpio state (row i).key value =
      { state with data := Function.update state.data i read } := by
  unfold parseEntry
  rw [current, find_row]
  dsimp only
  rw [reads]

/-- The line of a row whose value is readable. -/
theorem entry_clean {text : Text} (i : Fin kTableCount) (plain : ∀ c ∈ text, Plain c) :
    ∀ c ∈ (row i).key ++ '=' :: text, Plain c := by
  obtain ⟨_, _, _, _, named⟩ := row_named i
  intro c member
  rcases List.mem_append.mp member with name | value
  · exact plain_of_isNameChar (named c name)
  · rcases List.mem_cons.mp value with rfl | value
    · exact ⟨by decide, by decide, by decide⟩
    · exact plain c value

private theorem heading_clean (i : Fin kTableCount) :
    ∀ c ∈ '[' :: (row i).module ++ [']'], Plain c := by
  obtain ⟨_, _, _, named, _⟩ := row_named i
  intro c member
  rw [List.cons_append] at member
  rcases List.mem_cons.mp member with rfl | within
  · exact ⟨by decide, by decide, by decide⟩
  · rcases List.mem_append.mp within with name | close
    · exact plain_of_isNameChar (named c name)
    · cases List.mem_singleton.mp close
      exact ⟨by decide, by decide, by decide⟩

/-- What a heading before a row's line, if there is one, leaves: its module is current. -/
theorem parse_heading (validGpio : Int → Bool) (state : ParseState) (i : Fin kTableCount)
    (text : Text) :
    (tokens isLineEnd ((if state.currentModule ≠ (row i).module then
        (if i.val ≠ 0 then ['\n'] else []) ++ ('[' :: (row i).module ++ [']']) ++ ['\n']
      else []) ++ text)).foldl (parseLine validGpio) state =
      (tokens isLineEnd text).foldl (parseLine validGpio)
        { state with currentModule := (row i).module } := by
  by_cases same : state.currentModule = (row i).module
  · rw [if_neg (not_not_intro same), ← same]
    rfl
  · have line : tokens isLineEnd (('[' :: (row i).module ++ [']']) ++ '\n' :: text) =
        ('[' :: (row i).module ++ [']']) :: tokens isLineEnd text :=
      tokens_line (fun c member => isLineEnd_of_plain (heading_clean i c member))
        (List.cons_ne_nil _ _) (by decide) text
    have blank : tokens isLineEnd ((if i.val ≠ 0 then ['\n'] else []) ++
        (('[' :: (row i).module ++ [']']) ++ '\n' :: text)) =
        ('[' :: (row i).module ++ [']']) :: tokens isLineEnd text := by
      split
      · rw [List.singleton_append, tokens_blank (by decide), line]
      · rw [List.nil_append, line]
    rw [if_pos same, List.append_assoc, List.append_assoc, List.singleton_append, blank,
      List.foldl_cons, parseLine_heading]

/-- The rows are read back one by one. -/
theorem parse_saveRows {validGpio : Int → Bool} {data reread : SettingsData}
    (plain : ∀ i, ∀ c ∈ formatEntry (row i).type (data i), Plain c)
    (reads : ∀ i, parseInto validGpio (row i).type (formatEntry (row i).type (data i)) =
      some (reread i))
    (rows : List (Fin kTableCount)) (state : ParseState) :
    ∃ last, (tokens isLineEnd (saveRows data state.currentModule rows)).foldl
        (parseLine validGpio) state =
      { currentModule := last
        data := fun i => if i ∈ rows then reread i else state.data i
        skippedLines := state.skippedLines } := by
  induction rows generalizing state with
  | nil => exact ⟨state.currentModule, rfl⟩
  | cons i rest ih =>
    have line := tokens_line (fun c member => isLineEnd_of_plain (entry_clean i (plain i) c member))
      (by simp) (by decide : isLineEnd '\n' = true) (saveRows data (row i).module rest)
    obtain ⟨last, after⟩ := ih { state with
      currentModule := (row i).module
      data := Function.update state.data i (reread i) }
    refine ⟨last, ?_⟩
    unfold saveRows
    rw [List.append_assoc, parse_heading, line, List.foldl_cons, parseLine_entry,
      parseEntry_row rfl (reads i), after]
    congr 1
    funext j
    by_cases here : j = i
    · subst here
      simp
    · simp [here]

private theorem saveRows_unended {data : SettingsData}
    (plain : ∀ i, ∀ c ∈ formatEntry (row i).type (data i), Plain c)
    (current : Text) (rows : List (Fin kTableCount)) : '\x00' ∉ saveRows data current rows := by
  induction rows generalizing current with
  | nil => exact List.not_mem_nil
  | cons i rest ih =>
    have entry : '\x00' ∉ (row i).key ++ '=' :: formatEntry (row i).type (data i) :=
      nul_of_plain (entry_clean i (plain i))
    have heading : '\x00' ∉ '[' :: (row i).module ++ [']'] := nul_of_plain (heading_clean i)
    have head : '\x00' ∉ (if current ≠ (row i).module then
        (if i.val ≠ 0 then ['\n'] else []) ++ ('[' :: (row i).module ++ [']']) ++ ['\n']
      else []) := by
      split
      · intro member
        rcases List.mem_append.mp member with member | ends
        · rcases List.mem_append.mp member with blank | named
          · split at blank
            · exact absurd (List.mem_singleton.mp blank) (by decide)
            · exact absurd blank List.not_mem_nil
          · exact heading named
        · exact absurd (List.mem_singleton.mp ends) (by decide)
      · exact List.not_mem_nil
    unfold saveRows
    intro member
    rcases List.mem_append.mp member with member | after
    · rcases List.mem_append.mp member with before | within
      · exact head before
      · exact entry within
    · rcases List.mem_cons.mp after with ends | later
      · exact absurd ends (by decide)
      · exact ih _ later

/-- The most characters a value is written with. -/
def SettingType.room : SettingType → Nat
  | string size => size
  | _ => kFormatRoom

private theorem formatEntry_length (type : SettingType) (value : type.Value) :
    (formatEntry type value).length ≤ type.room := by
  cases type with
  | string size => exact Nat.le_of_lt value.fits
  | u32 => exact List.length_take_le _ _
  | u8 => exact List.length_take_le _ _
  | float => exact List.length_take_le _ _
  | pin => exact List.length_take_le _ _

/-- The most characters the lines of the rows have. -/
def rowsRoom : List (Fin kTableCount) → Nat
  | [] => 0
  | i :: rest => (row i).module.length + (row i).key.length + (row i).type.room + 6 + rowsRoom rest

private theorem saveRows_length (data : SettingsData) (current : Text)
    (rows : List (Fin kTableCount)) :
    (saveRows data current rows).length ≤ rowsRoom rows := by
  induction rows generalizing current with
  | nil => exact Nat.le_refl 0
  | cons i rest ih =>
    have after := ih (row i).module
    have value := formatEntry_length (row i).type (data i)
    have head : (if current ≠ (row i).module then
        (if i.val ≠ 0 then ['\n'] else []) ++ ('[' :: (row i).module ++ [']']) ++ ['\n']
      else []).length ≤ (row i).module.length + 4 := by
      split
      · have blank : (if i.val ≠ 0 then ['\n'] else [] : Text).length ≤ 1 := by
          split <;> simp
        simp only [List.length_append, List.length_cons, List.length_nil] at blank ⊢
        omega
      · exact Nat.zero_le _
    unfold saveRows rowsRoom
    rw [List.length_append, List.length_append, List.length_append, List.length_cons,
      List.length_cons]
    omega

/-- The whole file fits the buffer it is read into. -/
theorem saveText_length (data : SettingsData) :
    (saveText data).length ≤ ROBOT_SETTINGS_FILE_MAX_BYTES - 1 :=
  Nat.le_trans (saveRows_length data [] _) (by decide +kernel)

/-- A save that succeeds leaves the whole text on the card. -/
theorem save_saved {settings : RobotSettings} {card : SDCard} {answer : WriteAnswer}
    (saved : (save settings card answer).1 = true) :
    (save settings card answer).2.2.mounted = true ∧
      (save settings card answer).2.2.file = some (saveText settings.data) := by
  unfold save at saved ⊢
  split at saved
  · contradiction
  · rename_i mounted
    have written : answer.written = true := saved
    rw [if_neg mounted]
    refine ⟨by simpa [SDCard.writeFile] using mounted, ?_⟩
    simp [SDCard.writeFile, written]

/-- A load of a file that was saved whole reads all of it. -/
theorem load_eq {settings : RobotSettings} {card : SDCard} {answer : WriteAnswer}
    (saved : (save settings card answer).1 = true) (validGpio : Int → Bool)
    (other : RobotSettings) (again : WriteAnswer) :
    load validGpio other (save settings card answer).2.2 true again =
      (true, (parseFile validGpio other.data (saveText settings.data)).skippedLines,
        { other with data := (parseFile validGpio other.data (saveText settings.data)).data },
        (save settings card answer).2.2) := by
  obtain ⟨mounted, file⟩ := save_saved saved
  unfold load SDCard.readFile
  rw [mounted, file, if_neg (by decide), if_pos rfl, Option.map_some,
    List.take_of_length_le (saveText_length settings.data)]

private theorem parseFile_saveText {validGpio : Int → Bool} {data reread : SettingsData}
    (plain : ∀ i, ∀ c ∈ formatEntry (row i).type (data i), Plain c)
    (reads : ∀ i, parseInto validGpio (row i).type (formatEntry (row i).type (data i)) =
      some (reread i)) (other : SettingsData) :
    (parseFile validGpio other (saveText data)).skippedLines = 0 ∧
      (parseFile validGpio other (saveText data)).data = reread := by
  obtain ⟨last, parsed⟩ := parse_saveRows plain reads (List.finRange kTableCount)
    { data := other }
  have whole : cString (saveText data) = saveText data :=
    cString_of_plain (saveRows_unended plain [] _)
  unfold parseFile
  rw [whole]
  unfold saveText
  rw [parsed]
  exact ⟨rfl, funext fun i => if_pos (List.mem_finRange i)⟩

/-- Whatever a file says, its lines give strings that a line can hold. -/
theorem parseLine_legible {validGpio : Int → Bool} {state : ParseState} {line : Text}
    (clean : ∀ c ∈ line, isLineEnd c = false)
    (legible : ∀ i, Legible (row i).type (state.data i)) :
    ∀ i, Legible (row i).type ((parseLine validGpio state line).data i) := by
  have entry : ∀ key value : Text, (∀ c ∈ value, isLineEnd c = false) →
      ∀ i, Legible (row i).type ((parseEntry validGpio state key value).data i) := by
    intro key value within
    unfold parseEntry
    split
    · rename_i i _
      split
      · rename_i parsed reads
        intro j
        by_cases here : j = i
        · subst here
          simpa using legible_of_parseInto within reads
        · simpa [here] using legible j
      · exact legible
    · exact legible
  unfold parseLine
  split
  · exact legible
  · rename_i c rest text
    have within : ∀ d ∈ c :: rest, isLineEnd d = false := fun d member =>
      clean d (List.dropWhile_subset _ (text ▸ member))
    dsimp only
    split
    · split <;> exact legible
    · split
      · exact legible
      · split
        · refine entry _ _ fun d member => within d ?_
          exact List.dropWhile_subset _ (List.mem_of_mem_drop member)
        · exact legible

private theorem parseFile_legible (validGpio : Int → Bool) {data : SettingsData} (buffer : Text)
    (legible : ∀ i, Legible (row i).type (data i)) :
    ∀ i, Legible (row i).type ((parseFile validGpio data buffer).data i) := by
  have fold : ∀ (lines : List Text) (state : ParseState),
      (∀ line ∈ lines, ∀ c ∈ line, isLineEnd c = false) →
      (∀ i, Legible (row i).type (state.data i)) →
      ∀ i, Legible (row i).type ((lines.foldl (parseLine validGpio) state).data i) := by
    intro lines
    induction lines with
    | nil => exact fun _ _ legible => legible
    | cons line rest ih =>
      intro state clean legible
      rw [List.foldl_cons]
      refine ih _ (fun other member => clean other (List.mem_cons_of_mem line member)) ?_
      exact parseLine_legible (clean line List.mem_cons_self) legible
  exact fold _ _ (tokens_clean _) legible

/-- A string that a line can hold, where there is room for one. -/
def CString.sample (value : CString size) : CString size :=
  if room : 1 < size then ⟨['x'], room, by decide⟩ else value

def SettingType.sample : (type : SettingType) → type.Value → type.Value
  | .string _, value => value.sample
  | _, value => value

def SettingType.roomy : SettingType → Bool
  | string size => 1 < size
  | _ => true

private theorem kTable_roomy : ∀ entry ∈ kTable, entry.type.roomy = true := by
  decide +kernel

private theorem legible_sample {type : SettingType} (roomy : type.roomy = true) (value : type.Value)
    :
    Legible type (type.sample value) := by
  cases type with
  | string size =>
    have room : 1 < size := of_decide_eq_true roomy
    have sample : CString.sample value = ⟨['x'], room, by decide⟩ := dif_pos room
    have holds : (CString.sample value).Holds := by
      rw [sample]
      refine ⟨List.cons_ne_nil _ _, fun c member => ?_⟩
      cases List.mem_singleton.mp member
      rfl
    exact holds
  | u32 => trivial
  | u8 => trivial
  | float => trivial
  | pin => trivial

/-- A value that comes back from the file: a string that a line can hold, and a
float that `%.6f` keeps. -/
def Survives : (type : SettingType) → type.Value → Prop
  | .string _, value => value.Holds
  | .float, value => value.Kept kFormatRoom
  | _, _ => True

instance : (type : SettingType) → (value : type.Value) → Decidable (Survives type value)
  | .string _, value =>
    have : Decidable (∀ c ∈ value.text, isLineEnd c = false) :=
      List.decidableBAll (fun c => isLineEnd c = false) value.text
    inferInstanceAs (Decidable (value.text ≠ [] ∧ ∀ c ∈ value.text, isLineEnd c = false))
  | .float, value => inferInstanceAs (Decidable (value.Kept kFormatRoom))
  | .u32, _ => inferInstanceAs (Decidable True)
  | .u8, _ => inferInstanceAs (Decidable True)
  | .pin, _ => inferInstanceAs (Decidable True)

/-- A load of the card gives any settings these values, and skips no line. -/
def ComesBack (validGpio : Int → Bool) (data : SettingsData) (card : SDCard) : Prop :=
  ∀ other again, load validGpio other card true again = (true, 0, { other with data }, card)

private theorem survives_iff (type : SettingType) (value : type.Value) :
    Survives type value ↔ Legible type value ∧ Exact type value := by
  cases type with
  | string size => exact (and_iff_left trivial).symm
  | float => exact (and_iff_right trivial).symm
  | u32 => exact (and_self_iff).symm
  | u8 => exact (and_self_iff).symm
  | pin => exact (and_self_iff).symm

/-- Settings whose pins are GPIOs come back into any other settings, with no line
skipped, exactly when each of their values does. -/
theorem load_saved_iff {validGpio : Int → Bool} {settings : RobotSettings}
    (valid : ∀ i, Valid validGpio (row i).type (settings.data i)) {card : SDCard}
    {answer : WriteAnswer} (saved : (save settings card answer).1 = true) :
    ComesBack validGpio settings.data (save settings card answer).2.2 ↔
      ∀ i, Survives (row i).type (settings.data i) := by
  have plain : (∀ i, Legible (row i).type (settings.data i)) →
      ∀ i, ∀ c ∈ formatEntry (row i).type (settings.data i), Plain c :=
    fun legible i => formatEntry_plain _ _ (legible i)
  simp only [survives_iff, forall_and]
  constructor
  · intro loads
    have same : ∀ other, (parseFile validGpio other (saveText settings.data)).data =
        settings.data := by
      intro other
      have loaded := loads { data := other } answer
      rw [load_eq saved] at loaded
      exact congrArg (fun result => RobotSettings.data result.2.2.1) loaded
    have legible : ∀ i, Legible (row i).type (settings.data i) := by
      rw [← same fun i => (row i).type.sample (initial i)]
      exact parseFile_legible validGpio _ fun i =>
        legible_sample (kTable_roomy (row i) (List.get_mem kTable i)) _
    choose reread reads exact using fun i => parseInto_formatEntry _ _ (legible i) (valid i)
    have parsed := (parseFile_saveText (plain legible) reads initial).2
    rw [same] at parsed
    exact ⟨legible, fun i => (exact i).mp (congrFun parsed i).symm⟩
  · rintro ⟨legible, exact⟩ other again
    choose reread reads exactly using fun i => parseInto_formatEntry _ _ (legible i) (valid i)
    obtain ⟨skipped, parsed⟩ := parseFile_saveText (plain legible) reads other.data
    have same : reread = settings.data := funext fun i => (exactly i).mpr (exact i)
    rw [load_eq saved, skipped, parsed, same]

private theorem set_valid {validGpio : Int → Bool} {data : SettingsData}
    (valid : ∀ i, Valid validGpio (row i).type (data i)) (module key value : Text) :
    ∀ i, Valid validGpio (row i).type ((set validGpio data module key value).2 i) := by
  unfold set
  split
  · rename_i i _
    split
    · rename_i parsed reads
      intro j
      by_cases here : j = i
      · subst here
        simpa using validPin_of_parseInto reads
      · simpa [here] using valid j
    · exact valid
  · exact valid

/-- The settings after calls of `set` with a module, a key and a value each. -/
def afterSets (validGpio : Int → Bool) (calls : List (Text × Text × Text)) : SettingsData :=
  calls.foldl (fun data call => (set validGpio data call.1 call.2.1 call.2.2).2) initial

private theorem afterSets_valid {validGpio : Int → Bool}
    (factory : ∀ i, Valid validGpio (row i).type (initial i))
    (calls : List (Text × Text × Text)) :
    ∀ i, Valid validGpio (row i).type (afterSets validGpio calls i) := by
  have fold : ∀ data : SettingsData, (∀ i, Valid validGpio (row i).type (data i)) →
      ∀ i, Valid validGpio (row i).type
        (calls.foldl (fun data call =>
          (set validGpio data call.1 call.2.1 call.2.2).2) data i) := by
    induction calls with
    | nil => exact fun _ valid => valid
    | cons call rest ih => exact fun _ valid => ih _ (set_valid valid _ _ _)
  exact fold initial factory

/-- Settings that any calls of `set` made and a save wrote whole come back into
any other settings, with no line skipped, exactly when each string is one a line
can hold and each float is kept by its six places. -/
theorem settings_survive_iff {validGpio : Int → Bool}
    (factory : ∀ i, Valid validGpio (row i).type (initial i))
    (calls : List (Text × Text × Text)) (saveRevision : UInt32) {card : SDCard}
    {answer : WriteAnswer}
    (saved : (save ⟨afterSets validGpio calls, saveRevision⟩ card answer).1 = true) :
    ComesBack validGpio (afterSets validGpio calls)
        (save ⟨afterSets validGpio calls, saveRevision⟩ card answer).2.2 ↔
      ∀ i, Survives (row i).type (afterSets validGpio calls i) :=
  load_saved_iff (afterSets_valid factory calls) saved

/-- The GPIOs of the ESP32-S3. -/
def gpioOfChip (pin : Int) : Bool := (0 ≤ pin ∧ pin ≤ 21) ∨ (26 ≤ pin ∧ pin ≤ 48)

private theorem factory_valid : ∀ i : Fin kTableCount, Valid gpioOfChip (row i).type (initial i) :=
    by
  decide +kernel

def named : List (Text × Text × Text) :=
  [("identity".toList, "name".toList, "bally".toList),
    ("identity".toList, "description".toList, "line follower".toList)]

theorem settings_survive_named :
    ComesBack gpioOfChip (afterSets gpioOfChip named)
      (save ⟨afterSets gpioOfChip named, 0⟩ { mounted := true } { written := true }).2.2 :=
  (settings_survive_iff factory_valid named 0 rfl).mpr (by decide +kernel)

private theorem survives_of_comesBack {calls : List (Text × Text × Text)}
    (back : ComesBack gpioOfChip (afterSets gpioOfChip calls)
      (save ⟨afterSets gpioOfChip calls, 0⟩ { mounted := true } { written := true }).2.2) :
    ∀ i, Survives (row i).type (afterSets gpioOfChip calls i) := by
  have iff := @load_saved_iff gpioOfChip ⟨afterSets gpioOfChip calls, 0⟩
    (afterSets_valid factory_valid calls) { mounted := true } { written := true } rfl
  exact iff.mp back

/-- The factory settings do not come back, for their empty strings, and neither
does a small float. -/
theorem some_settings_do_not_survive :
    ¬ ComesBack gpioOfChip (afterSets gpioOfChip [])
        (save ⟨afterSets gpioOfChip [], 0⟩ { mounted := true } { written := true }).2.2 ∧
      ¬ ComesBack gpioOfChip
        (afterSets gpioOfChip
          (named ++ [("ekf_noise".toList, "v_noise".toList, "0.0000001".toList)]))
        (save ⟨afterSets gpioOfChip
          (named ++ [("ekf_noise".toList, "v_noise".toList, "0.0000001".toList)]), 0⟩
          { mounted := true } { written := true }).2.2 := by
  constructor
  · exact fun back => absurd (survives_of_comesBack back) (by decide +kernel)
  · exact fun back => absurd (survives_of_comesBack back) (by decide +kernel)

end BallyOS.Settings
