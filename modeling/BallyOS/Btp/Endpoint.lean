import BallyOS.Btp.Interface

/-! The sending side of the library: an endpoint numbers the messages it sends
from its own counter, and seals a message under the number it is given. The
counter is a parameter. -/
namespace BallyOS.Btp

/-- A logical message, its header identity aside. -/
structure Message where
  type : MessageType
  objectId : UInt16
  timestampUs : UInt64
  payload : List UInt8
deriving Repr, DecidableEq

/-- An endpoint's sequence counter: its state after `begin`, the next number it
hands out, `none` when it has none left, and a bound that no later number is
below. -/
structure Sequencer (Counter : Type) where
  begun : Counter
  reserve : Counter → Option (UInt32 × Counter)
  floor : Counter → Nat

/-- The documented behaviour: the numbers handed out increase. -/
def Sequencer.Ascending (sequencer : Sequencer Counter) : Prop :=
  ∀ counter number next, sequencer.reserve counter = some (number, next) →
    sequencer.floor counter ≤ number.toNat ∧ number.toNat < sequencer.floor next

variable {Counter Item : Type} (sequencer : Sequencer Counter)

/-- What the next `reserve_sequence` returns. -/
def Sequencer.upcoming (counter : Counter) : Option UInt32 :=
  (sequencer.reserve counter).map Prod.fst

/-- The counter after a `reserve_sequence`. -/
def Sequencer.advanced (counter : Counter) : Counter :=
  match sequencer.reserve counter with
  | none => counter
  | some (_, next) => next

/-- One `reserve_sequence` for each item in turn; an item gets no number when
there is none left. -/
def Sequencer.numberAll : Counter → List Item → List (UInt32 × Item) × Counter
  | counter, [] => ([], counter)
  | counter, item :: rest =>
    match sequencer.reserve counter with
    | none => numberAll counter rest
    | some (number, next) =>
      let (numbered, after) := numberAll next rest
      ((number, item) :: numbered, after)

/-- What a counter that went from one state to another may have handed out. -/
structure Sequencer.HandedOut (before after : Counter) (numbered : List (UInt32 × Item)) :
    Prop where
  stays : sequencer.floor before ≤ sequencer.floor after
  above : ∀ number item, (number, item) ∈ numbered → sequencer.floor before ≤ number.toNat
  below : ∀ number item, (number, item) ∈ numbered → number.toNat < sequencer.floor after
  single : ∀ number one two, (number, one) ∈ numbered → (number, two) ∈ numbered → one = two

variable {sequencer}

private theorem handedOut_nothing (counter : Counter) :
    sequencer.HandedOut counter counter ([] : List (UInt32 × Item)) :=
  ⟨Nat.le_refl _, by simp, by simp, by simp⟩

private theorem handedOut_reserve (ascending : sequencer.Ascending)
    (reserved : sequencer.reserve counter = some (number, next)) (item : Item) :
    sequencer.HandedOut counter next [(number, item)] := by
  obtain ⟨above, below⟩ := ascending counter number next reserved
  refine ⟨by omega, ?_, ?_, ?_⟩
  · rintro other _ member
    cases List.mem_singleton.mp member
    exact above
  · rintro other _ member
    cases List.mem_singleton.mp member
    exact below
  · rintro other _ _ one two
    cases List.mem_singleton.mp one
    cases List.mem_singleton.mp two
    rfl

theorem handedOut_advanced (ascending : sequencer.Ascending) (counter : Counter) (item : Item) :
    sequencer.HandedOut counter (sequencer.advanced counter)
      ((sequencer.upcoming counter).toList.map fun number => (number, item)) := by
  cases reserved : sequencer.reserve counter with
  | none =>
    simpa [Sequencer.upcoming, Sequencer.advanced, reserved] using handedOut_nothing counter
  | some handed =>
    simpa [Sequencer.upcoming, Sequencer.advanced, reserved] using
      handedOut_reserve ascending reserved item

theorem handedOut_numberAll (ascending : sequencer.Ascending) (counter : Counter)
    (items : List Item) :
    sequencer.HandedOut counter (sequencer.numberAll counter items).2
      (sequencer.numberAll counter items).1 := by
  induction items generalizing counter with
  | nil => exact handedOut_nothing counter
  | cons item rest ih =>
    simp only [Sequencer.numberAll]
    split
    · exact ih counter
    · rename_i number next reserved
      obtain ⟨above, below⟩ := ascending counter number next reserved
      obtain ⟨stays, later, before, single⟩ := ih next
      dsimp only
      refine ⟨by omega, ?_, ?_, ?_⟩
      · intro other one member
        rcases List.mem_cons.mp member with same | added
        · cases same
          exact above
        · have := later other one added
          omega
      · intro other one member
        rcases List.mem_cons.mp member with same | added
        · cases same
          omega
        · exact before other one added
      · intro other one two first second
        rcases List.mem_cons.mp first with same | added
        · cases same
          rcases List.mem_cons.mp second with equal | newer
          · cases equal
            rfl
          · exact absurd (later _ two newer) (by omega)
        · rcases List.mem_cons.mp second with equal | newer
          · cases equal
            exact absurd (later _ one added) (by omega)
          · exact single _ one two added newer

/-- A counter from one up to the last 32-bit number. -/
def countingSequencer : Sequencer Nat where
  begun := 1
  reserve next := if next < 4294967296 then some (UInt32.ofNat next, next + 1) else none
  floor := id

theorem countingSequencer_ascending : countingSequencer.Ascending := by
  intro counter number next reserved
  simp only [countingSequencer] at reserved
  split at reserved
  · rename_i fits
    cases reserved
    have exact32 : (UInt32.ofNat counter).toNat = counter := UInt32.toNat_ofNat_of_lt' fits
    show counter ≤ (UInt32.ofNat counter).toNat ∧ (UInt32.ofNat counter).toNat < counter + 1
    omega
  · cases reserved

end BallyOS.Btp
