import BallyOS.Ota.Networks
import BallyOS.Settings.Fields

/-! What the parser of the Wi-Fi list reads of a line, and of a file that is continued. -/
namespace BallyOS.Ota
open Library Settings

/-- What the file ends in after its last line end. -/
def openLine (content : Text) : Text := content.rtakeWhile (!isLineEnd ·)

def closedLines (content : Text) : Text := content.rdropWhile (!isLineEnd ·)

def firstLine (text : Text) : Text := text.takeWhile (!isLineEnd ·)

def laterLines (text : Text) : Text := text.dropWhile (!isLineEnd ·)

/-- Nothing behind the content is read. -/
def Hidden (content : Text) : Prop :=
  '\x00' ∈ content.take (kListBytes - 1) ∨ kListBytes - 1 ≤ content.length

/-- What a line without a network says with more behind it, and a network whose password
has its length. -/
def Absorbs (line more : Text) : Prop :=
  if ',' ∈ line then
    line.head? = some ',' ∨ more = [] ∨
      OTA_PASS_MAX_LEN - 1 ≤ ((line.dropWhile (· ≠ ',')).drop 1).length
  else ',' ∉ more

/-- A network whose line is read as one. -/
structure Named (credential : Credential) : Prop where
  solid : credential.ssid.text ≠ []
  plain : ',' ∉ credential.ssid.text

/-- A network that the parser can have read. -/
structure Stored (credential : Credential) : Prop extends Named credential where
  line : ∀ c ∈ credential.ssid.text ++ credential.password.text, isLineEnd c = false

/-! ### Lines -/

theorem cString_inj {a b : CString size} (same : a.text = b.text) : a = b := by
  cases a
  cases b
  cases same
  rfl

theorem printInto_text {text : Text} (unended : '\x00' ∉ text) (room : 0 < size) :
    (printInto size room text).text = text.take (size - 1) :=
  congrArg (List.take (size - 1)) (cString_of_plain unended)

theorem printInto_self (value : CString size) (room : 0 < size) :
    printInto size room value.text = value := by
  apply cString_inj
  rw [printInto_text value.unended room]
  exact List.take_of_length_le (Nat.le_sub_one_of_lt value.fits)

theorem network_plain {line : Text} (plain : ',' ∉ line) : network line = none := if_neg plain

theorem network_comma {ssid password : Text} (plain : ',' ∉ ssid) :
    network (ssid ++ ',' :: password) =
      if ssid = [] then none
      else some ⟨printInto OTA_SSID_MAX_LEN (by decide) ssid,
        printInto OTA_PASS_MAX_LEN (by decide) password⟩ := by
  have solid : ∀ c ∈ ssid, decide (c ≠ ',') = true :=
    fun c member => decide_eq_true fun comma => plain (comma ▸ member)
  unfold network
  rw [if_pos (by simp), List.takeWhile_append_of_pos solid, List.dropWhile_append_of_pos solid]
  simp

theorem network_named {credential : Credential} (named : Named credential) :
    network (credential.ssid.text ++ ',' :: credential.password.text) = some credential := by
  rw [network_comma named.plain, if_neg named.solid, printInto_self, printInto_self]

private theorem take_append_eq_iff {front back : List α} {n : Nat} :
    (front ++ back).take n = front.take n ↔ back = [] ∨ n ≤ front.length := by
  rw [List.take_append, List.append_right_eq_self, List.take_eq_nil_iff, Nat.sub_eq_zero_iff_le]
  exact Or.comm

/-- A line reads the same with more behind it exactly if it absorbs it. -/
theorem network_append {line more : Text} (unended : '\x00' ∉ line) (further : '\x00' ∉ more)
    (named : more.head? ≠ some ',') :
    network (line ++ more) = network line ↔ Absorbs line more := by
  unfold Absorbs
  split
  · rename_i comma
    obtain ⟨ssid, password, rfl, plain⟩ := List.eq_append_cons_of_mem comma
    have solid : ∀ c ∈ ssid, decide (c ≠ ',') = true :=
      fun c member => decide_eq_true fun same => plain (same ▸ member)
    rw [List.append_assoc, List.cons_append, network_comma plain, network_comma plain,
      List.dropWhile_append_of_pos solid]
    cases ssid with
    | nil => simp
    | cons c rest =>
      have other : c ≠ ',' := fun same => plain (same ▸ List.mem_cons_self)
      have ended : '\x00' ∉ password :=
        fun member => unended (List.mem_append_right _ (List.mem_cons_of_mem _ member))
      have whole : '\x00' ∉ password ++ more := fun member =>
        (List.mem_append.mp member).elim ended further
      simp only [reduceCtorEq, if_false, Option.some.injEq, Credential.mk.injEq, true_and,
        List.cons_append, List.head?_cons, other, false_or, ne_eq, not_true_eq_false,
        decide_false, Bool.false_eq_true, not_false_eq_true, List.dropWhile_cons_of_neg,
        List.drop_succ_cons, List.drop_zero]
      rw [← take_append_eq_iff, ← printInto_text whole (by decide : 0 < OTA_PASS_MAX_LEN),
        ← printInto_text ended (by decide : 0 < OTA_PASS_MAX_LEN)]
      exact ⟨congrArg CString.text, cString_inj⟩
  · rename_i plain
    rw [network_plain plain]
    constructor
    · intro none comma
      obtain ⟨front, back, rfl, clean⟩ := List.eq_append_cons_of_mem comma
      have solid : line ++ front ≠ [] := by
        cases front with
        | nil => exact absurd rfl named
        | cons c rest => simp
      have both : ',' ∉ line ++ front := fun member =>
        (List.mem_append.mp member).elim plain clean
      rw [← List.append_assoc, network_comma both, if_neg solid] at none
      contradiction
    · intro clean
      exact network_plain fun member => (List.mem_append.mp member).elim plain clean

/-! ### The end of a file -/

private theorem filterMap_closeToken (line : Text) :
    (closeToken line).filterMap network = (network line).toList := by
  cases line with
  | nil => rfl
  | cons c rest =>
    unfold closeToken
    cases named : network (c :: rest) with
    | none => rw [List.filterMap_cons_none named]; rfl
    | some credential => rw [List.filterMap_cons_some named]; rfl

theorem entries_append (content more : Text) :
    entries (content ++ more) =
      entries (closedLines content) ++ (network (openLine content ++ firstLine more)).toList ++
        entries (laterLines more) := by
  unfold entries
  rw [tokens_append, List.filterMap_append, List.filterMap_append, filterMap_closeToken]
  rfl

theorem entries_split (content : Text) :
    entries content = entries (closedLines content) ++ (network (openLine content)).toList := by
  unfold entries
  rw [tokens_split, List.filterMap_append, filterMap_closeToken]
  rfl

theorem entries_eq_nil {text : Text} :
    entries text = [] ↔ ∀ line ∈ tokens isLineEnd text, network line = none :=
  List.filterMap_eq_nil_iff

private theorem visible_hidden {content : Text} (hidden : Hidden content) (more : Text) :
    visible (content ++ more) = visible content := by
  unfold visible
  rw [List.take_append]
  rcases hidden with ended | long
  · unfold cString
    rw [List.takeWhile_append, if_neg]
    intro whole
    have every := List.takeWhile_eq_self_iff.mp (List.takeWhile_sublist _ |>.eq_of_length whole)
    exact of_decide_eq_true (every _ ended) rfl
  · rw [Nat.sub_eq_zero_of_le long, List.take_zero, List.append_nil]

theorem networks_hidden {content : Text} (hidden : Hidden content) (more : Text) :
    networks (content ++ more) = networks content := by
  unfold networks
  rw [visible_hidden hidden]

section Seen
variable {content : Text} (seen : ¬ Hidden content)
include seen

private theorem length_of_seen : content.length < kListBytes - 1 :=
  Nat.lt_of_not_le fun long => seen (.inr long)

theorem unended_of_seen : '\x00' ∉ content := by
  intro member
  apply seen
  rw [Hidden, List.take_of_length_le (Nat.le_of_lt (length_of_seen seen))]
  exact .inl member

theorem visible_append {more : Text} (unended : '\x00' ∉ more) :
    visible (content ++ more) = content ++ more.take (kListBytes - 1 - content.length) := by
  unfold visible
  rw [List.take_append, List.take_of_length_le (Nat.le_of_lt (length_of_seen seen))]
  apply cString_of_plain
  intro member
  rcases List.mem_append.mp member with before | behind
  · exact unended_of_seen seen before
  · exact unended (List.mem_of_mem_take behind)

theorem visible_self : visible content = content := by
  have whole := visible_append seen (List.not_mem_nil : '\x00' ∉ [])
  rwa [List.append_nil, List.take_nil, List.append_nil] at whole

theorem unended_openLine : '\x00' ∉ openLine content := fun member =>
  unended_of_seen seen ((List.rtakeWhile_suffix _ content).mem member)

end Seen

end BallyOS.Ota
