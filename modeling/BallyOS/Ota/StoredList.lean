import BallyOS.Ota.Entries

/-! When the Wi-Fi list on the card behaves as a list. A network is added to the bytes of
the file and removed from what the parser made of them, and the two agree only on a file
whose last line is ended and which the parser reads to its end. -/
namespace BallyOS.Ota
open Library Settings

/-- What is read of a line that is written behind the content. -/
def readBehind (content line : Text) : Text := line.take (kListBytes - 1 - content.length)

/-- What an append left of a line changes nothing: it is not read, or the networks in front
of the last line are as many as are read; or that line reads the same with it, and no
further line of it is a network where there is room for one. -/
def LeavesList (content left : Text) : Prop :=
  Hidden content ∨ OTA_MAX_NETWORKS ≤ (entries (closedLines content)).length ∨
    Absorbs (openLine content) (firstLine (readBehind content left)) ∧
      ((entries content).length < OTA_MAX_NETWORKS →
        ∀ line ∈ tokens isLineEnd (laterLines (readBehind content left)), network line = none)

/-- A network's line behind the content is read as that network: all of it is read, its
names do not end the line, and the last line of the file is ended or does not alter the
SSID. -/
structure AppendsTo (content : Text) (credential : Credential) : Prop where
  room : (entries content).length < OTA_MAX_NETWORKS
  unended : '\x00' ∉ content
  fits : content.length + credential.ssid.text.length + 1 + credential.password.text.length ≤
    kListBytes - 1
  line : ∀ c ∈ credential.ssid.text ++ credential.password.text, isLineEnd c = false
  unnamed : ',' ∉ openLine content
  behind : (openLine content ++ credential.ssid.text).take (OTA_SSID_MAX_LEN - 1) =
    credential.ssid.text

/-! ### What an append leaves -/

/-- Behind `before`, an option and a list in place of another option, of which as many as
there is room for are kept. -/
theorem take_behind_iff {before later : List α} {named grown : Option α} {room : Nat}
    (kept : named.isSome → grown.isSome) :
    (before ++ (grown.toList ++ later)).take room = (before ++ named.toList).take room ↔
      room ≤ before.length ∨
        grown = named ∧ ((before ++ named.toList).length < room → later = []) := by
  by_cases full : room ≤ before.length
  · rw [List.take_append_of_le_length full, List.take_append_of_le_length full]
    exact ⟨fun _ => .inl full, fun _ => rfl⟩
  · obtain ⟨k, rfl⟩ : ∃ k, room = before.length + (k + 1) := ⟨room - before.length - 1, by omega⟩
    rw [List.take_length_add_append, List.take_length_add_append, List.append_cancel_left_eq,
      or_iff_right full, List.length_append, Nat.add_lt_add_iff_left]
    cases named with
    | none =>
      cases grown with
      | none => simp
      | some other => simp
    | some credential =>
      cases grown with
      | none => exact absurd (kept rfl) Bool.false_ne_true
      | some other =>
        have room : later.take k = [] ↔ (0 < k → later = []) := by
          rw [List.take_eq_nil_iff, Nat.pos_iff_ne_zero]
          exact Decidable.or_iff_not_imp_left
        simp [room]

private theorem entries_behind {content left : Text} (seen : ¬ Hidden content)
    (unended : '\x00' ∉ left) :
    entries (visible (content ++ left)) =
      entries (closedLines content) ++
        ((network (openLine content ++ firstLine (readBehind content left))).toList ++
          entries (laterLines (readBehind content left))) := by
  rw [visible_append seen unended, entries_append, List.append_assoc]
  rfl

private theorem Credential.unended_line {credential : Credential} : '\x00' ∉ credential.line := by
  simp [Credential.line, credential.ssid.unended, credential.password.unended]

private theorem Named.head_line {credential : Credential} (named : Named credential) (n : Nat) :
    (credential.line.take n).head? ≠ some ',' := by
  intro head
  have whole := List.mem_of_mem_head? head
  cases text : credential.ssid.text with
  | nil => exact named.solid text
  | cons c rest =>
    cases n with
    | zero => contradiction
    | succ n =>
      have same : c = ',' := by simpa [Credential.line, text] using head
      exact named.plain (by simp [text, same])

private theorem grown_of_named {line more : Text} (named : (network line).isSome) :
    (network (line ++ more)).isSome := by
  by_cases comma : ',' ∈ line
  · obtain ⟨ssid, password, rfl, plain⟩ := List.eq_append_cons_of_mem comma
    rw [network_comma plain] at named
    rw [List.append_assoc, List.cons_append, network_comma plain]
    split
    · rename_i blank
      rw [if_pos blank] at named
      contradiction
    · rfl
  · rw [network_plain comma] at named
    contradiction

private theorem leaves_iff {content : Text} {credential : Credential} (named : Named credential)
    (kept : Nat) :
    networks (content ++ credential.line.take kept) = networks content ↔
      LeavesList content (credential.line.take kept) := by
  unfold LeavesList
  by_cases hidden : Hidden content
  · rw [networks_hidden hidden]
    exact ⟨fun _ => .inl hidden, fun _ => rfl⟩
  · have unended : '\x00' ∉ credential.line.take kept :=
      fun member => Credential.unended_line (List.mem_of_mem_take member)
    have first : firstLine (readBehind content (credential.line.take kept)) <+:
        credential.line := by
      apply (List.takeWhile_prefix _).trans
      exact (List.take_prefix _ _).trans (List.take_prefix _ _)
    have head : (firstLine (readBehind content (credential.line.take kept))).head? ≠ some ',' := by
      rw [List.prefix_iff_eq_take.mp first]
      exact named.head_line _
    have clean : '\x00' ∉ firstLine (readBehind content (credential.line.take kept)) :=
      fun member => Credential.unended_line (first.mem member)
    rw [networks, entries_behind hidden unended, networks, visible_self hidden,
      or_iff_right hidden, entries_split content, take_behind_iff grown_of_named,
      network_append (unended_openLine hidden) clean head, entries_eq_nil]

private theorem stored_of_network {line : Text} {credential : Credential}
    (unended : '\x00' ∉ line) (clean : ∀ c ∈ line, isLineEnd c = false)
    (named : network line = some credential) : Stored credential := by
  by_cases comma : ',' ∈ line
  · obtain ⟨ssid, password, rfl, plain⟩ := List.eq_append_cons_of_mem comma
    obtain ⟨front, back⟩ : '\x00' ∉ ssid ∧ '\x00' ∉ password := by
      simp only [List.mem_append, List.mem_cons, not_or] at unended
      exact ⟨unended.1, unended.2.2⟩
    rw [network_comma plain] at named
    split at named
    · contradiction
    · rename_i solid
      cases named
      refine ⟨⟨?_, fun member => plain ?_⟩, fun c member => clean c ?_⟩
      · rw [printInto_text front, ne_eq, List.take_eq_nil_iff]
        exact fun none => none.elim (by decide) solid
      · rw [printInto_text front] at member
        exact List.mem_of_mem_take member
      · rw [printInto_text front, printInto_text back] at member
        rcases List.mem_append.mp member with first | second
        · exact List.mem_append_left _ (List.mem_of_mem_take first)
        · exact List.mem_append_right _ (List.mem_cons_of_mem _ (List.mem_of_mem_take second))
  · rw [network_plain comma] at named
    contradiction

private theorem stored_of_networks {content : Text} {credential : Credential}
    (member : credential ∈ networks content) : Stored credential := by
  obtain ⟨line, token, named⟩ := List.mem_filterMap.mp (List.mem_of_mem_take member)
  refine stored_of_network (fun nul => ?_) (tokens_clean _ line token) named
  exact cString_unended _ (tokens_subset token nul)

/-! ### A network that was added -/

def Credential.body (credential : Credential) : Text :=
  credential.ssid.text ++ ',' :: credential.password.text

private theorem Credential.line_eq (credential : Credential) :
    credential.line = credential.body ++ ['\n'] := by
  simp [line, body]

private theorem body_clean {credential : Credential}
    (line : ∀ c ∈ credential.ssid.text ++ credential.password.text, isLineEnd c = false) :
    ∀ c ∈ credential.body, isLineEnd c = false := by
  intro c member
  simp only [Credential.body, List.mem_append, List.mem_cons] at member
  rcases member with ssid | rfl | password
  · exact line c (List.mem_append_left _ ssid)
  · decide
  · exact line c (List.mem_append_right _ password)

private theorem readBehind_line {credential : Credential}
    (clean : ∀ c ∈ credential.body, isLineEnd c = false) (content : Text) :
    firstLine (readBehind content credential.line) = readBehind content credential.body ∧
      entries (laterLines (readBehind content credential.line)) = [] := by
  have solid : ∀ c ∈ readBehind content credential.body, (!isLineEnd c) = true := by
    intro c member
    rw [clean c (List.mem_of_mem_take member)]
    rfl
  unfold firstLine laterLines
  have whole : readBehind content credential.line = readBehind content credential.body ++
      ['\n'].take (kListBytes - 1 - content.length - credential.body.length) := by
    rw [readBehind, Credential.line_eq, List.take_append]
    rfl
  rw [whole, List.takeWhile_append_of_pos solid, List.dropWhile_append_of_pos solid]
  cases kListBytes - 1 - content.length - credential.body.length with
  | zero => exact ⟨List.append_nil _, rfl⟩
  | succ n =>
    rw [List.take_succ_cons, List.take_nil]
    exact ⟨List.append_nil _, rfl⟩

/-- With room for it, and its names on one line, what is read of it is the list's last entry. -/
theorem networks_line {content : Text} {credential : Credential} (seen : ¬ Hidden content)
    (room : (entries content).length < OTA_MAX_NETWORKS)
    (line : ∀ c ∈ credential.ssid.text ++ credential.password.text, isLineEnd c = false) :
    networks (content ++ credential.line) = networks content ++ [credential] ↔
      network (openLine content) = none ∧
        network (openLine content ++ readBehind content credential.body) = some credential := by
  obtain ⟨first, later⟩ := readBehind_line (body_clean line) content
  have split := entries_split content
  have short : ∀ named : Option Credential, named.toList.length ≤ 1 :=
    fun named => by cases named <;> simp
  have before := short (network (openLine content ++ readBehind content credential.body))
  rw [split, List.length_append] at room
  have whole : networks content = entries (closedLines content) ++
      (network (openLine content)).toList := by
    rw [networks, visible_self seen, split]
    exact List.take_of_length_le (by rw [List.length_append]; omega)
  rw [networks, entries_behind seen Credential.unended_line, first, later, List.append_nil, whole,
    List.take_of_length_le (by rw [List.length_append]; omega), List.append_assoc,
    List.append_cancel_left_eq]
  cases network (openLine content) with
  | none => simp
  | some other =>
    cases network (openLine content ++ readBehind content credential.body) with
    | none => simp
    | some both => simp

/-- Behind an open line, the first `n` bytes of a network's line are read as the network. -/
theorem network_behind_iff {line : Text} {credential : Credential} (named : Named credential)
    (unended : '\x00' ∉ line) (n : Nat) :
    network line = none ∧ network (line ++ credential.body.take n) = some credential ↔
      ',' ∉ line ∧
        (line ++ credential.ssid.text).take (OTA_SSID_MAX_LEN - 1) = credential.ssid.text ∧
        credential.ssid.text.length + 1 + credential.password.text.length ≤ n := by
  have front : '\x00' ∉ line ++ credential.ssid.text := fun member =>
    (List.mem_append.mp member).elim unended credential.ssid.unended
  constructor
  · rintro ⟨none, behind⟩
    have plain : ',' ∉ line := by
      intro comma
      obtain ⟨ssid, password, rfl, plain⟩ := List.eq_append_cons_of_mem comma
      rw [network_comma plain] at none
      rw [List.append_assoc, List.cons_append, network_comma plain] at behind
      split at behind
      · contradiction
      · rename_i solid
        rw [if_neg solid] at none
        contradiction
    have both : ',' ∉ line ++ credential.ssid.text := fun member =>
      (List.mem_append.mp member).elim plain named.plain
    have reached : credential.ssid.text.length < n := by
      refine Nat.lt_of_not_le fun short => ?_
      rw [Credential.body, List.take_append_of_le_length short, network_plain] at behind
      · contradiction
      · exact fun member => both (List.mem_append.mpr
          ((List.mem_append.mp member).imp_right List.mem_of_mem_take))
    obtain ⟨k, rfl⟩ : ∃ k, n = credential.ssid.text.length + (k + 1) :=
      ⟨n - credential.ssid.text.length - 1, by omega⟩
    rw [Credential.body, List.take_length_add_append, List.take_succ_cons, ← List.append_assoc,
      network_comma both, if_neg (by simp [named.solid]), Option.some.injEq] at behind
    have ssid := congrArg (·.ssid.text) behind
    have password := congrArg (·.password.text.length) behind
    have cut : '\x00' ∉ credential.password.text.take k :=
      fun member => credential.password.unended (List.mem_of_mem_take member)
    dsimp only at ssid password
    rw [printInto_text front] at ssid
    rw [printInto_text cut, List.length_take, List.length_take] at password
    exact ⟨plain, ssid, by omega⟩
  · rintro ⟨plain, ssid, reached⟩
    have both : ',' ∉ line ++ credential.ssid.text := fun member =>
      (List.mem_append.mp member).elim plain named.plain
    have whole : credential.body.take n = credential.body := by
      apply List.take_of_length_le
      rw [Credential.body, List.length_append, List.length_cons]
      omega
    rw [whole, Credential.body, ← List.append_assoc, network_comma both,
      if_neg (by simp [named.solid]), printInto_self]
    refine ⟨network_plain plain, congrArg some ?_⟩
    have same : printInto OTA_SSID_MAX_LEN (by decide) (line ++ credential.ssid.text) =
        credential.ssid := cString_inj ((printInto_text front _).trans ssid)
    rw [same]

private theorem appends_iff {content : Text} {credential : Credential} (named : Named credential) :
    networks (content ++ credential.line) = networks content ++ [credential] ↔
      AppendsTo content credential := by
  constructor
  · intro appended
    have seen : ¬ Hidden content := by
      intro hidden
      rw [networks_hidden hidden] at appended
      simp at appended
    have room : (entries content).length < OTA_MAX_NETWORKS := by
      have length := congrArg List.length appended
      have most : (networks (content ++ credential.line)).length ≤ OTA_MAX_NETWORKS :=
        List.length_take_le _ _
      rw [List.length_append, List.length_singleton] at length
      have old : (networks content).length = min OTA_MAX_NETWORKS (entries content).length := by
        rw [networks, visible_self seen, List.length_take]
      omega
    have last : credential ∈ networks (content ++ credential.line) :=
      appended ▸ List.mem_append_right _ List.mem_cons_self
    have line := (stored_of_networks last).line
    obtain ⟨unnamed, behind, reached⟩ := (network_behind_iff named (unended_openLine seen) _).mp
      ((networks_line seen room line).mp appended)
    exact ⟨room, unended_of_seen seen, by omega, line, unnamed, behind⟩
  · intro appends
    have fits := appends.fits
    have seen : ¬ Hidden content := by
      rintro (ended | long)
      · exact appends.unended (List.mem_of_mem_take ended)
      · omega
    apply (networks_line seen appends.room appends.line).mpr
    apply (network_behind_iff named (unended_openLine seen) _).mpr
    exact ⟨appends.unnamed, appends.behind, by omega⟩

/-! ### A network that was removed -/

private theorem line_length_le (credential : Credential) :
    credential.line.length ≤ OTA_SSID_MAX_LEN + OTA_PASS_MAX_LEN := by
  have ssid := credential.ssid.fits
  have password := credential.password.fits
  rw [Credential.line_eq, Credential.body]
  simp only [List.length_append, List.length_cons, List.length_nil]
  omega

private theorem lines_length_le (credentials : List Credential) :
    (credentials.flatMap Credential.line).length ≤
      credentials.length * (OTA_SSID_MAX_LEN + OTA_PASS_MAX_LEN) := by
  induction credentials with
  | nil => exact Nat.le_refl _
  | cons credential rest ih =>
    have first := line_length_le credential
    rw [List.flatMap_cons, List.length_append, List.length_cons, Nat.succ_mul]
    omega

/-- What remains when one is removed fits in the buffer. -/
theorem lines_fit {credentials : List Credential} (fewer : credentials.length < OTA_MAX_NETWORKS) :
    (credentials.flatMap Credential.line).length < kListBytes - 1 := by
  have whole := lines_length_le credentials
  have most : credentials.length * (OTA_SSID_MAX_LEN + OTA_PASS_MAX_LEN) ≤
      (OTA_MAX_NETWORKS - 1) * (OTA_SSID_MAX_LEN + OTA_PASS_MAX_LEN) :=
    Nat.mul_le_mul_right _ (Nat.le_sub_one_of_lt fewer)
  exact Nat.lt_of_le_of_lt (Nat.le_trans whole most) (by decide)

private theorem fillBuffer_fits {credentials : List Credential} {offset : Nat}
    (fits : offset + (credentials.flatMap Credential.line).length < kListBytes) :
    fillBuffer offset credentials = some (credentials.flatMap Credential.line) := by
  induction credentials generalizing offset with
  | nil => rfl
  | cons credential rest ih =>
    rw [List.flatMap_cons, List.length_append] at fits
    rw [fillBuffer, if_neg (by omega), ih (by omega)]
    rfl

private theorem tokens_lines {credentials : List Credential}
    (stored : ∀ credential ∈ credentials, Stored credential) :
    tokens isLineEnd (credentials.flatMap Credential.line) = credentials.map Credential.body := by
  induction credentials with
  | nil => rfl
  | cons credential rest ih =>
    have first := stored credential List.mem_cons_self
    have solid : credential.body ≠ [] := by simp [Credential.body]
    rw [List.flatMap_cons, Credential.line_eq, List.append_assoc, List.singleton_append,
      tokens_line (body_clean first.line) solid (by decide), List.map_cons,
      ih fun other member => stored other (List.mem_cons_of_mem _ member)]

private theorem networks_lines {credentials : List Credential}
    (stored : ∀ credential ∈ credentials, Stored credential)
    (fewer : credentials.length < OTA_MAX_NETWORKS) :
    networks (credentials.flatMap Credential.line) = credentials := by
  have unended : '\x00' ∉ credentials.flatMap Credential.line := by
    intro member
    obtain ⟨credential, _, within⟩ := List.mem_flatMap.mp member
    exact Credential.unended_line within
  have seen : ¬ Hidden (credentials.flatMap Credential.line) := by
    rintro (ended | long)
    · exact unended (List.mem_of_mem_take ended)
    · exact absurd (lines_fit fewer) (Nat.not_lt_of_le long)
  have read : credentials.filterMap (network ∘ Credential.body) = credentials.filterMap some :=
    List.filterMap_congr fun credential member => network_named (stored credential member).toNamed
  rw [networks, visible_self seen, entries, tokens_lines stored, List.filterMap_map, read,
    List.filterMap_some]
  exact List.take_of_length_le (Nat.le_of_lt fewer)

/-- A write of the lines that was cut short leaves no more networks than lines. -/
theorem networks_cut {credentials : List Credential}
    (stored : ∀ credential ∈ credentials, Stored credential) (kept : Nat) :
    (networks ((credentials.flatMap Credential.line).take kept)).length ≤ credentials.length := by
  have front : visible ((credentials.flatMap Credential.line).take kept) <+:
      credentials.flatMap Credential.line :=
    ((List.takeWhile_prefix _).trans (List.take_prefix _ _)).trans (List.take_prefix _ _)
  have lines := @tokens_length_le Char isLineEnd _ _ front
  rw [tokens_lines stored, List.length_map] at lines
  apply Nat.le_trans (List.length_take_le' _ _)
  exact Nat.le_trans (List.length_filterMap_le _ _) lines

/-! ### The calls -/

def stored (card : SDCard) : List Credential := networks (contentOf card)

/-- What a call that succeeds makes of the list. -/
def ListCall.intended (list : List Credential) : ListCall → List Credential
  | .add ssid password _ _ => list ++ (entered ssid password).toList
  | .remove index _ _ => list.eraseIdx index.toNat

/-- The list is what was intended if the answer is that all is well, and as it was if not. -/
def Honest (before intended : List Credential) (outcome : Bool × SDCard) : Prop :=
  stored outcome.2 = if outcome.1 then intended else before

def BehavesAsList (card : SDCard) (call : ListCall) : Prop :=
  Honest (stored card) (call.intended (stored card)) (call.perform card)

/-- When an append of a network's line does to the list what it answers. -/
def FileAnswer.Keeps (content : Text) (credential : Credential) : FileAnswer → Prop
  | .refused => True
  | .failed kept => LeavesList content (credential.line.take kept)
  | .done => AppendsTo content credential

/-- When a call does: the line it appends is read as its network or, where that fails, not
read at all; and a list that is written anew is written whole. -/
def KeepsList (card : SDCard) : ListCall → Prop
  | .add ssid password readable answer =>
    ∀ credential, entered ssid password = some credential → card.mounted = true →
      (parseFile card readable).length < OTA_MAX_NETWORKS →
        answer.Keeps (contentOf card) credential
  | .remove index readable answer =>
    index.toNat < (parseFile card readable).length → ∀ kept, answer ≠ .failed kept

private theorem named_of_entered {ssid password : Text} {credential : Credential}
    (taken : entered ssid password = some credential) : Named credential := by
  unfold entered at taken
  split at taken
  · contradiction
  · rename_i solid
    split at taken
    · cases taken
      exact ⟨fun none => solid (.inl none), fun comma => solid (.inr (.inl comma))⟩
    · contradiction

private theorem parseFile_read (card : SDCard) (readable : Bool) :
    parseFile card readable = stored card ∨ parseFile card readable = [] := by
  unfold parseFile
  split
  · exact .inr rfl
  · unfold SDCard.readFile
    split
    · rename_i read
      split at read
      · cases file : card.file with
        | none =>
          rw [file] at read
          contradiction
        | some content =>
          rw [file] at read
          cases read
          refine .inl ?_
          rw [stored, contentOf, file]
          rfl
      · contradiction
    · exact .inr rfl

private theorem append_iff {card : SDCard} {credential : Credential} (named : Named credential)
    (mounted : card.mounted = true) (answer : FileAnswer) :
    Honest (stored card) (stored card ++ [credential]) (appendFile card credential.line answer) ↔
      answer.Keeps (contentOf card) credential := by
  unfold appendFile
  rw [if_neg (by simp [mounted])]
  cases answer with
  | refused => exact ⟨fun _ => trivial, fun _ => rfl⟩
  | failed kept => exact leaves_iff named kept
  | done => exact appends_iff named

private theorem addNetwork_iff (card : SDCard) (ssid password : Text) (readable : Bool)
    (answer : FileAnswer) :
    BehavesAsList card (.add ssid password readable answer) ↔
      KeepsList card (.add ssid password readable answer) := by
  unfold BehavesAsList KeepsList
  dsimp only [ListCall.perform, ListCall.intended]
  unfold addNetwork
  cases taken : entered ssid password with
  | none => exact ⟨fun _ _ same => by contradiction, fun _ => rfl⟩
  | some credential =>
    have short : ¬ OTA_SSID_MAX_LEN + OTA_PASS_MAX_LEN + 2 ≤ credential.line.length := by
      have length := line_length_le credential
      omega
    dsimp only
    rw [if_neg short]
    by_cases full : OTA_MAX_NETWORKS ≤ (parseFile card readable).length
    · rw [if_pos full]
      exact ⟨fun _ _ _ _ room => absurd full (Nat.not_le_of_lt room), fun _ => rfl⟩
    · rw [if_neg full]
      cases mounted : card.mounted with
      | false =>
        unfold appendFile
        rw [if_pos mounted]
        exact ⟨fun _ _ _ absent => absurd absent Bool.false_ne_true, fun _ => rfl⟩
      | true =>
        have appended := append_iff (named_of_entered taken) mounted answer
        constructor
        · intro behaves other same _ _
          cases same
          exact appended.mp behaves
        · intro keeps
          exact appended.mpr (keeps credential rfl rfl (Nat.lt_of_not_le full))

private theorem removeNetwork_iff (card : SDCard) (index : UInt16) (readable : Bool)
    (answer : FileAnswer) :
    BehavesAsList card (.remove index readable answer) ↔
      KeepsList card (.remove index readable answer) := by
  unfold BehavesAsList KeepsList
  dsimp only [ListCall.perform, ListCall.intended]
  unfold removeNetwork
  dsimp only
  by_cases beyond : (parseFile card readable).length ≤ index.toNat
  · rw [if_pos beyond]
    exact ⟨fun _ within => absurd beyond (Nat.not_le_of_lt within), fun _ => rfl⟩
  · have within := Nat.lt_of_not_le beyond
    have read : parseFile card readable = stored card := by
      rcases parseFile_read card readable with read | none
      · exact read
      · rw [none] at within
        exact absurd within (Nat.not_lt_zero _)
    rw [read] at within ⊢
    have most : (stored card).length ≤ OTA_MAX_NETWORKS := List.length_take_le _ _
    have fewer : ((stored card).eraseIdx index.toNat).length < (stored card).length := by
      rw [List.length_eraseIdx_of_lt within]
      omega
    have others : ∀ credential ∈ (stored card).eraseIdx index.toNat, Stored credential :=
      fun credential member => stored_of_networks (List.mem_of_mem_eraseIdx member)
    have room := Nat.lt_of_lt_of_le fewer most
    have fits := lines_fit room
    have filled : fillBuffer 0 ((stored card).eraseIdx index.toNat) = some _ :=
      fillBuffer_fits (by omega)
    rw [if_neg (Nat.not_le_of_lt within), filled]
    cases answer with
    | refused => exact ⟨fun _ _ => nofun, fun _ => rfl⟩
    | failed kept =>
      refine ⟨fun same => ?_, fun keeps => absurd rfl (keeps within kept)⟩
      have count := Nat.le_of_eq (congrArg List.length same.symm)
      exact absurd fewer (Nat.not_lt_of_le (Nat.le_trans count (networks_cut others kept)))
    | done =>
      refine ⟨fun _ _ _ => nofun, fun _ => ?_⟩
      exact networks_lines others room

/-- For every content of the file and every call: it behaves as on a list exactly if it
keeps to these conditions. -/
theorem behaves_as_list_iff (card : SDCard) (call : ListCall) :
    BehavesAsList card call ↔ KeepsList card call := by
  cases call with
  | add ssid password readable answer => exact addNetwork_iff card ssid password readable answer
  | remove index readable answer => exact removeNetwork_iff card index readable answer

/-- A network behind a line whose end is missing becomes a part of its password. -/
theorem glued_to_last_line : ¬ ∀ card call, BehavesAsList card call := by
  intro always
  have added := always ⟨true, some "home,secret".toList⟩
    (.add "lab".toList "key".toList true .done)
  have count := congrArg List.length added
  exact absurd count (by decide)

end BallyOS.Ota
