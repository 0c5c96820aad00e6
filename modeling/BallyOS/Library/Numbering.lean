/-! Items numbered by several sources. A relation says which item goes with a
number of a source; it stays single-valued as long as a number that gets an
item was not handed out before. -/
namespace BallyOS.Library

variable {Source Number Item : Type}

/-- Every number in use was handed out by its source, for one item. -/
structure Numbered (holds : Source → Number → Item → Prop) (spent : Source → Number → Prop) :
    Prop where
  single : ∀ source number one two, holds source number one → holds source number two → one = two
  spent : ∀ source number item, holds source number item → spent source number

/-- Numbers that are newly in use, for items of one source. -/
structure Issued (spent later : Source → Number → Prop) (source : Source)
    (issued : List (Number × Item)) : Prop where
  unspent : ∀ number item, (number, item) ∈ issued → ¬spent source number
  later : ∀ number item, (number, item) ∈ issued → later source number
  single : ∀ number one two, (number, one) ∈ issued → (number, two) ∈ issued → one = two

theorem issued_nil (spent later : Source → Number → Prop) (source : Source) :
    Issued spent later source ([] : List (Number × Item)) :=
  ⟨by simp, by simp, by simp⟩

/-- Numbers in use may be given up, and unspent ones be put to use. -/
theorem numbered_issue {before after : Source → Number → Item → Prop}
    {spent later : Source → Number → Prop} (numbered : Numbered before spent)
    (stays : ∀ source number, spent source number → later source number)
    (issued : Issued spent later source new)
    (held : ∀ other number item, after other number item →
      before other number item ∨ other = source ∧ (number, item) ∈ new) :
    Numbered after later where
  single := by
    intro other number one two first second
    rcases held other number one first with old | ⟨rfl, added⟩
    · rcases held other number two second with older | ⟨rfl, newer⟩
      · exact numbered.single other number one two old older
      · exact absurd (numbered.spent other number one old) (issued.unspent number two newer)
    · rcases held other number two second with older | ⟨_, newer⟩
      · exact absurd (numbered.spent other number two older) (issued.unspent number one added)
      · exact issued.single number one two added newer
  spent := by
    intro other number item now
    rcases held other number item now with old | ⟨rfl, added⟩
    · exact stays other number (numbered.spent other number item old)
    · exact issued.later number item added

end BallyOS.Library
