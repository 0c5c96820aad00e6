import Mathlib.Data.List.Forall2
import BallyOS.Library.Cutting
import BallyOS.Terminal.Isolation

/-! The bytes of each terminal on their way to the editor. Every byte is marked with
its place in what its origin sent, and keeps the mark in the slot's buffer, in the
editor, and in the line that is made of it. -/
namespace BallyOS.Terminal
open Library

variable {E : Type}

/-- Bytes, each with its place in what its origin sent. -/
abbrev Marked := List (Char × Nat)

def marked (stream : Text) : Marked := stream.zipIdx

def textOf (marks : Marked) : Text := marks.map Prod.fst

/-- Where marked bytes end a piece: where their text does. -/
def endsMarked (ends : Text → Bool) (marks : Marked) : Bool := ends (textOf marks)

/-- The responder with what each origin has sent, and whether the last of it was
turned away. The marks go along with the bytes: those of each slot's buffer, those
that `pump` holds of the slot and no line was made of, those the held line was made
of, and those each submitted line was made of. -/
structure Wire (E : Type) where
  responder : Responder E
  sent : Origin → Text := fun _ => []
  gap : Origin → Bool := fun _ => false
  buffered : Fin 3 → Marked := fun _ => []
  reading : Fin 3 → Marked := fun _ => []
  heldFrom : Fin 3 → Marked := fun _ => []
  madeOf : List Marked := []

/-- How much of a message the slot's buffer takes. -/
def Responder.accepted (world : Responder E) (origin : Origin) (plaintext : Text)
    (locked : Bool) : Text :=
  if locked = false then []
  else plaintext.take (kMaxPendingIn - match world.find origin with
    | some i => (world.slots i).input.length
    | none => 0)

/-- Bytes of a message were turned away. -/
def Responder.loses (world : Responder E) (origin : Origin) (plaintext : Text)
    (locked : Bool) : Bool :=
  (world.accepted origin plaintext locked).length < plaintext.length

namespace Wire

/-- The bytes a message leaves in a slot, marked where they come in the stream. -/
def accepted (wire : Wire E) (origin : Origin) (plaintext : Text) (locked : Bool) : Marked :=
  (wire.responder.accepted origin plaintext locked).zipIdx (wire.sent origin).length

/-- They go behind the origin's own, or into the slot given out for it. -/
def hear (wire : Wire E) (target : LinkTarget) (origin : Origin) (timestamp : UInt64)
    (plaintext : Text) (locked : Bool) : Wire E :=
  let responder := wire.responder.onTerminalIn target origin timestamp plaintext locked
  if plaintext = [] then { wire with responder }
  else { wire with
    responder
    sent := Function.update wire.sent origin (wire.sent origin ++ plaintext)
    gap := Function.update wire.gap origin (wire.responder.loses origin plaintext locked)
    buffered :=
      if locked = false then wire.buffered
      else match wire.responder.find origin with
        | some i => Function.update wire.buffered i
            (wire.buffered i ++ wire.accepted origin plaintext locked)
        | none => Function.update wire.buffered wire.responder.victim
            (wire.accepted origin plaintext locked) }

/-- A pass takes a slot's buffer over, and forgets what it held if it is to reset. -/
def take (wire : Wire E) (i : Fin 3) (now : UInt64) : Wire E :=
  { wire with
    responder := wire.responder.pumpTake i now
    buffered := Function.update wire.buffered i []
    reading := Function.update wire.reading i
      ((if (wire.responder.slots i).needsEditorReset then [] else wire.reading i) ++
        wire.buffered i) }

/-- A line that was submitted was made of these. -/
def credit (wire : Wire E) (next : Responder E) (marks : Marked) : List Marked :=
  if next.submitted = wire.responder.submitted then wire.madeOf else wire.madeOf ++ [marks]

/-- Before a pass polls, it submits at most the line it held. -/
def begin (config : Config E) (wire : Wire E) (pass : Pass) (accepted : Bool) : Wire E :=
  let responder := wire.responder.pumpBegin config pass accepted
  { wire with responder, madeOf := wire.credit responder (wire.heldFrom pass.index) }

/-- The first bytes the editor was fed make the line it completes. -/
def poll (fed : E → Text) (config : Config E) (wire : Wire E) (pass : Pass) (out : Text)
    (accepted : Bool) : Wire E :=
  let responder := wire.responder.pumpPoll config pass out accepted
  let typing := wire.responder.typings pass.index
  let polled := config.editor.poll typing.editor
  let length := (fed typing.editor).length - (fed polled.1).length
  let piece := (wire.reading pass.index).take length
  match polled.2.2 with
  | none => { wire with responder }
  | some _ => { wire with
    responder
    reading := Function.update wire.reading pass.index ((wire.reading pass.index).drop length)
    heldFrom :=
      if typing.awaitingResult ∧ typing.pendingLine = [] then
        Function.update wire.heldFrom pass.index piece
      else wire.heldFrom
    madeOf := wire.credit responder piece }

def step (fed : E → Text) (config : Config E) : Machine (Wire E) Event := fun wire event =>
  (Terminal.step config wire.responder event).map fun responder =>
    match event with
    | .terminalIn target origin timestamp plaintext locked =>
      wire.hear target origin timestamp plaintext locked
    | .pumpTake i now => wire.take i now
    | .pumpBegin accepted =>
      match wire.responder.pump with
      | .taken pass => wire.begin config pass accepted
      | _ => { wire with responder }
    | .pumpPoll accepted =>
      match wire.responder.pump with
      | .polling pass out => wire.poll fed config pass out accepted
      | _ => { wire with responder }
    | _ => { wire with responder }

/-- All the marked bytes of a slot's origin that no line was made of. -/
def unread (wire : Wire E) (i : Fin 3) : Marked :=
  if (wire.responder.slots i).needsEditorReset then wire.buffered i
  else wire.reading i ++ wire.buffered i

end Wire

/-- What is relied on of the line editor: `fed` is what it was fed and has made no line
of, and it makes a line only of the first of that which ends one. -/
structure Reads (editor : LineEditor E) (fed : E → Text) (ends : Text → Bool)
    (types : Text → Text → Prop) : Prop where
  reset : ∀ state, fed (editor.reset state) = []
  setPrompt : ∀ prompt state, fed (editor.setPrompt prompt state).1 = fed state
  writeResponse : ∀ text state, fed (editor.writeResponse text state).1 = fed state
  feed : ∀ bytes state, fed (editor.feed bytes state) = fed state ++ bytes
  polled : ∀ state line, (editor.poll state).2.2 = some line →
    ∃ piece, fed state = piece ++ fed (editor.poll state).1 ∧ cut ends piece = ([piece], []) ∧
      types piece line
  unpolled : ∀ state, (editor.poll state).2.2 = none → fed (editor.poll state).1 = fed state
  writeAsyncOutput : ∀ text state, fed (editor.writeAsyncOutput text state).1 = fed state
  refreshLine : ∀ state, fed (editor.refreshLine state).1 = fed state

namespace Responder

/-- What `pump` holds of a slot's input that no line was made of. -/
def holds (fed : E → Text) (world : Responder E) (i : Fin 3) : Text :=
  match world.pump with
  | .taken pass =>
    if pass.index = i then
      (if pass.needsReset then [] else fed (world.typings i).editor) ++ pass.input
    else fed (world.typings i).editor
  | _ => fed (world.typings i).editor

/-- All of a slot's input that no line was made of. -/
def unread (fed : E → Text) (world : Responder E) (i : Fin 3) : Text :=
  if (world.slots i).needsEditorReset then (world.slots i).input
  else world.holds fed i ++ (world.slots i).input

end Responder

/-- After a gap, bytes come in only where no line is unfinished. -/
def Separate (fed : E → Text) (ends : Text → Bool) (wire : Wire E) : Event → Prop
  | .terminalIn _ origin _ plaintext locked =>
    wire.responder.accepted origin plaintext locked ≠ [] → wire.gap origin = true →
      ∀ i, wire.responder.find origin = some i →
        unfinished ends (wire.responder.unread fed i) = []
  | _ => True

/-- The bytes a line was made of type it, and are one contiguous piece of what its
origin sent, each at its own place. -/
def Whole (types : Text → Text → Prop) (sent : Origin → Text) (origin : Origin) (line : Text)
    (marks : Marked) : Prop :=
  types (textOf marks) line ∧ marks <:+: marked (sent origin)

/-- The marks are those of the bytes they go along with, and stay together. -/
structure Unspliced (fed : E → Text) (ends : Text → Bool) (types : Text → Text → Prop)
    (wire : Wire E) : Prop where
  ordered : wire.responder.Ordered
  read : ∀ i, (wire.responder.slots i).used = true →
    textOf (wire.unread i) = wire.responder.unread fed i
  slot : ∀ i, (wire.responder.slots i).used = true → Contiguous (endsMarked ends)
    (marked (wire.sent (wire.responder.slots i).origin)) (wire.unread i)
  latest : ∀ i, (wire.responder.slots i).used = true →
    wire.gap (wire.responder.slots i).origin = false →
      unfinished (endsMarked ends) (wire.unread i) <:+
        marked (wire.sent (wire.responder.slots i).origin)
  held : ∀ pass, wire.responder.pump.pass = some pass →
    textOf (wire.reading pass.index) = wire.responder.holds fed pass.index
  pass : ∀ pass, wire.responder.pump.pass = some pass →
    Contiguous (endsMarked ends) (marked (wire.sent pass.origin)) (wire.reading pass.index)
  typed : List.Forall₂ (fun command marks =>
    Whole types wire.sent command.origin command.line marks) wire.responder.submitted wire.madeOf
  pending : ∀ i, (wire.responder.typings i).pendingLine ≠ [] →
    ∀ session origin, (wire.responder.typings i).owner = some session →
      wire.responder.sessions[session]? = some (origin, i) →
        Whole types wire.sent origin (wire.responder.typings i).pendingLine (wire.heldFrom i)

variable {fed : E → Text} {ends : Text → Bool} {types : Text → Text → Prop}

@[simp] theorem textOf_append (first second : Marked) :
    textOf (first ++ second) = textOf first ++ textOf second :=
  List.map_append

@[simp] theorem textOf_zipIdx (text : Text) (place : Nat) : textOf (text.zipIdx place) = text :=
  List.zipIdx_map_fst place text

private theorem marked_append (stream more : Text) :
    marked (stream ++ more) = marked stream ++ more.zipIdx stream.length := by
  rw [marked, List.zipIdx_append, Nat.zero_add, marked]

private theorem unfinished_textOf (ends : Text → Bool) (marks : Marked) :
    unfinished ends (textOf marks) = textOf (unfinished (endsMarked ends) marks) :=
  unfinished_map Prod.fst ends marks

/-! ### Beside the input -/

namespace Responder

/-- Slots are at most freed, and keep their input. -/
structure Beside (before after : Responder E) : Prop where
  slots : ∀ i, (after.slots i).used = true → (before.slots i).used = true ∧
    (after.slots i).origin = (before.slots i).origin ∧
    (after.slots i).needsEditorReset = (before.slots i).needsEditorReset ∧
    (after.slots i).input = (before.slots i).input
  typings : after.typings = before.typings
  pump : after.pump = before.pump
  sessions : after.sessions = before.sessions
  submitted : after.submitted = before.submitted

theorem beside_of_slots {before after : Responder E} (slots : after.slots = before.slots)
    (typings : after.typings = before.typings) (pump : after.pump = before.pump)
    (sessions : after.sessions = before.sessions) (submitted : after.submitted = before.submitted) :
    Beside before after :=
  ⟨fun i used => by rw [slots] at used ⊢; exact ⟨used, rfl, rfl, rfl⟩, typings, pump, sessions,
    submitted⟩

private theorem beside_setSlot {world : Responder E} {slot : Slot}
    (used : slot.used = (world.slots i).used) (origin : slot.origin = (world.slots i).origin)
    (needs : slot.needsEditorReset = (world.slots i).needsEditorReset)
    (input : slot.input = (world.slots i).input) : Beside world (world.setSlot i slot) := by
  refine ⟨fun j now => ?_, rfl, rfl, rfl, rfl⟩
  by_cases same : j = i
  · subst same
    rw [setSlot_self] at now ⊢
    exact ⟨used ▸ now, origin, needs, input⟩
  · rw [setSlot_other _ _ same] at now ⊢
    exact ⟨now, rfl, rfl, rfl⟩

theorem beside_unbind (world : Responder E) (target : LinkTarget) (locked : Bool) :
    Beside world (world.unbindTarget target locked) := by
  refine ⟨fun i used => ?_, rfl, rfl, rfl, rfl⟩
  simp only [unbindTarget] at used ⊢
  split at used
  · contradiction
  · rename_i kept
    rw [if_neg kept]
    exact ⟨used, rfl, rfl, rfl⟩

theorem beside_async (world : Responder E) (origin : Origin) (text : Text) (locked : Bool) :
    Beside world (world.pushAsyncOutput origin text locked) := by
  unfold pushAsyncOutput
  dsimp only
  split
  · exact beside_of_slots rfl rfl rfl rfl rfl
  split
  · exact beside_of_slots rfl rfl rfl rfl rfl
  split
  · exact beside_of_slots rfl rfl rfl rfl rfl
  split
  · exact beside_setSlot rfl rfl rfl rfl
  · exact beside_of_slots rfl rfl rfl rfl rfl

theorem beside_deliver (world : Responder E) (origin : Origin) (text : Text) (status : UInt8) :
    Beside world (world.deliverCommandOutput origin text status) := by
  unfold deliverCommandOutput
  split
  · exact beside_setSlot rfl rfl rfl rfl
  · exact beside_of_slots rfl rfl rfl rfl rfl

private theorem holds_eq {before after : Responder E} (typings : after.typings = before.typings)
    (pump : after.pump = before.pump) (i : Fin 3) : after.holds fed i = before.holds fed i := by
  simp only [holds, typings, pump]

theorem unread_eq {before after : Responder E} {i : Fin 3}
    (needs : (after.slots i).needsEditorReset = (before.slots i).needsEditorReset)
    (input : (after.slots i).input = (before.slots i).input)
    (holds : after.holds fed i = before.holds fed i) :
    after.unread fed i = before.unread fed i := by
  simp only [unread, needs, input, holds]

end Responder

theorem unspliced_beside {wire : Wire E} {next : Responder E}
    (unspliced : Unspliced fed ends types wire) (ordered : next.Ordered)
    (beside : Responder.Beside wire.responder next) :
    Unspliced fed ends types { wire with responder := next } := by
  have held : ∀ i, next.holds fed i = wire.responder.holds fed i :=
    Responder.holds_eq beside.typings beside.pump
  have text (i : Fin 3) (used : (next.slots i).used = true) :
      next.unread fed i = wire.responder.unread fed i :=
    have slot := beside.slots i used
    Responder.unread_eq slot.2.2.1 slot.2.2.2 (held i)
  have marks (i : Fin 3) (used : (next.slots i).used = true) :
      ({ wire with responder := next } : Wire E).unread i = wire.unread i := by
    simp only [Wire.unread, (beside.slots i used).2.2.1]
  constructor
  case ordered => exact ordered
  case read =>
    intro i used
    rw [marks i used, text i used]
    exact unspliced.read i (beside.slots i used).1
  case slot =>
    intro i used
    rw [marks i used]
    dsimp only
    rw [(beside.slots i used).2.1]
    exact unspliced.slot i (beside.slots i used).1
  case latest =>
    intro i used settled
    rw [marks i used]
    dsimp only at settled ⊢
    rw [(beside.slots i used).2.1] at settled ⊢
    exact unspliced.latest i (beside.slots i used).1 settled
  case held =>
    intro pass under
    dsimp only at under ⊢
    rw [beside.pump] at under
    rw [held]
    exact unspliced.held pass under
  case pass =>
    intro pass under
    dsimp only at under
    rw [beside.pump] at under
    exact unspliced.pass pass under
  case typed =>
    dsimp only
    rw [beside.submitted]
    exact unspliced.typed
  case pending =>
    dsimp only
    rw [beside.typings, beside.sessions]
    exact unspliced.pending

/-! ### The input -/

/-- Bytes of one origin came in, to its slot or to a slot given out for it, and some
were turned away. -/
structure Heard (before : Wire E) (origin : Origin) (taken : Marked) (turned : Text)
    (after : Wire E) : Prop where
  slots : ∀ j, (after.responder.slots j).used = true →
    (before.responder.slots j).used = true ∧
      (after.responder.slots j).origin = (before.responder.slots j).origin ∧
      (after.responder.slots j).needsEditorReset = (before.responder.slots j).needsEditorReset ∧
      (after.responder.slots j).input = (before.responder.slots j).input ++
        textOf (if (before.responder.slots j).origin = origin then taken else []) ∧
      after.buffered j = before.buffered j ++
        (if (before.responder.slots j).origin = origin then taken else []) ∨
    (after.responder.slots j).origin = origin ∧
      (after.responder.slots j).needsEditorReset = true ∧
      (after.responder.slots j).input = textOf taken ∧ after.buffered j = taken
  typings : after.responder.typings = before.responder.typings
  pump : after.responder.pump = before.responder.pump
  submitted : after.responder.submitted = before.responder.submitted
  sessions : ∃ more, after.responder.sessions = before.responder.sessions ++ more
  sent : after.sent =
    Function.update before.sent origin (before.sent origin ++ (textOf taken ++ turned))
  places : taken = (textOf taken).zipIdx (before.sent origin).length
  reading : after.reading = before.reading
  heldFrom : after.heldFrom = before.heldFrom
  madeOf : after.madeOf = before.madeOf

/-- What is not taken of a message is turned away. -/
theorem accepted_split (world : Responder E) (origin : Origin) (plaintext : Text)
    (locked : Bool) : ∃ turned, world.accepted origin plaintext locked ++ turned = plaintext := by
  unfold Responder.accepted
  split
  · exact ⟨plaintext, rfl⟩
  · exact ⟨_, List.take_append_drop _ plaintext⟩

private theorem heard_hear {wire : Wire E} (ordered : wire.responder.Ordered) (target : LinkTarget)
    (origin : Origin) (timestamp : UInt64) {plaintext : Text} (bytes : plaintext ≠ [])
    (locked : Bool)
    (split : wire.responder.accepted origin plaintext locked ++ turned = plaintext) :
    Heard wire origin (wire.accepted origin plaintext locked) turned
      (wire.hear target origin timestamp plaintext locked) := by
  have text : textOf (wire.accepted origin plaintext locked) =
      wire.responder.accepted origin plaintext locked := textOf_zipIdx _ _
  have sent : Function.update wire.sent origin (wire.sent origin ++ plaintext) =
      Function.update wire.sent origin (wire.sent origin ++
        (textOf (wire.accepted origin plaintext locked) ++ turned)) := by
    rw [text, split]
  have places : wire.accepted origin plaintext locked =
      (textOf (wire.accepted origin plaintext locked)).zipIdx (wire.sent origin).length := by
    rw [text]
    rfl
  unfold Wire.hear
  dsimp only
  rw [if_neg bytes]
  unfold Responder.onTerminalIn
  rw [if_neg bytes]
  cases locked with
  | false =>
    -- Without the lock nothing is taken.
    have nothing : wire.accepted origin plaintext false = [] := rfl
    rw [if_pos rfl, if_pos rfl]
    refine ⟨fun j used => .inl ⟨used, rfl, rfl, ?_, ?_⟩, rfl, rfl, rfl,
      ⟨[], (List.append_nil _).symm⟩, sent, places, rfl, rfl, rfl⟩
    · simp [nothing, textOf]
    · simp [nothing]
  | true =>
    rw [if_neg (by simp), if_neg (by simp)]
    dsimp only
    cases found : wire.responder.find origin with
    | some i =>
      obtain ⟨used, mine⟩ := Responder.find_some found
      rw [Responder.findOrAlloc_found found]
      refine ⟨fun j now => .inl ?_, rfl, rfl, rfl, ⟨[], (List.append_nil _).symm⟩, sent, places,
        rfl, rfl, rfl⟩
      dsimp only at now ⊢
      by_cases here : j = i
      · subst here
        rw [Responder.setSlot_self] at now ⊢
        refine ⟨now, rfl, rfl, ?_, ?_⟩
        · rw [if_pos mine, text, Responder.accepted, if_neg (by simp), found]
        · rw [Function.update_self, if_pos mine]
      · have other : (wire.responder.slots j).origin ≠ origin := fun same =>
          here (ordered.apart j i (by rwa [Responder.setSlot_other _ _ here] at now) used
            (same.trans mine.symm))
        rw [Responder.setSlot_other _ _ here] at now ⊢
        refine ⟨now, rfl, rfl, ?_, ?_⟩
        · rw [if_neg other]
          exact (List.append_nil _).symm
        · rw [Function.update_of_ne here, if_neg other, List.append_nil]
    | none =>
      obtain ⟨index, allocated⟩ := Responder.findOrAlloc_new found timestamp
      rw [index]
      have blank : ((wire.responder.findOrAlloc origin timestamp).2.slots
          wire.responder.victim).input = [] := by
        unfold Responder.findOrAlloc
        rw [found]
        exact congrArg Slot.input (Responder.setSlot_self wire.responder _ _)
      rw [blank]
      refine ⟨fun j now => ?_, allocated.typings, allocated.pump, allocated.submitted,
        ⟨_, allocated.sessions⟩, sent, places, rfl, rfl, rfl⟩
      dsimp only at now ⊢
      by_cases here : j = wire.responder.victim
      · subst here
        rw [Responder.setSlot_self] at now ⊢
        refine .inr ⟨allocated.origin, allocated.needs, ?_, Function.update_self ..⟩
        rw [text, Responder.accepted, if_neg (by simp), found]
        rfl
      · rw [Responder.setSlot_other _ _ here, allocated.others j here] at now ⊢
        have other := Responder.find_none found j now
        refine .inl ⟨now, rfl, rfl, ?_, ?_⟩
        · rw [if_neg other]
          exact (List.append_nil _).symm
        · rw [Function.update_of_ne here, if_neg other, List.append_nil]

/-- What was one piece of a stream stays one as more is sent. -/
theorem infix_marked_update {sent : Origin → Text} {origin : Origin} {marks : Marked}
    (within : marks <:+: marked (sent origin)) (sender : Origin) (more : Text) :
    marks <:+: marked (Function.update sent sender (sent sender ++ more) origin) := by
  by_cases same : origin = sender
  · subst same
    rw [Function.update_self, marked_append]
    exact List.infix_append_of_infix_left within
  · rw [Function.update_of_ne same]
    exact within

private theorem Whole.later {sent : Origin → Text} {origin : Origin} {line : Text} {marks : Marked}
    (whole : Whole types sent origin line marks) (sender : Origin) (more : Text) :
    Whole types (Function.update sent sender (sent sender ++ more)) origin line marks :=
  ⟨whole.1, infix_marked_update whole.2 sender more⟩

private theorem contiguous_update {sent : Origin → Text} {origin : Origin} {marks : Marked}
    (contiguous : Contiguous (endsMarked ends) (marked (sent origin)) marks) (sender : Origin)
    (more : Text) : Contiguous (endsMarked ends)
      (marked (Function.update sent sender (sent sender ++ more) origin)) marks :=
  ⟨fun piece member => infix_marked_update (contiguous.1 piece member) sender more,
    infix_marked_update contiguous.2 sender more⟩

/-- What a slot's origin has unread once bytes came in. -/
theorem unread_heard {before after : Wire E} {origin : Origin} {taken : Marked}
    (heard : Heard before origin taken turned after) (fed : E → Text) {j : Fin 3}
    (now : (after.responder.slots j).used = true) :
    (before.responder.slots j).used = true ∧
      (after.responder.slots j).origin = (before.responder.slots j).origin ∧
      after.responder.unread fed j = before.responder.unread fed j ++
        textOf (if (before.responder.slots j).origin = origin then taken else []) ∧
      after.unread j = before.unread j ++
        (if (before.responder.slots j).origin = origin then taken else []) ∨
    (after.responder.slots j).origin = origin ∧ after.responder.unread fed j = textOf taken ∧
      after.unread j = taken := by
  have holds : after.responder.holds fed j = before.responder.holds fed j :=
    Responder.holds_eq heard.typings heard.pump j
  rcases heard.slots j now with ⟨used, same, needs, input, kept⟩ | ⟨given, needs, input, kept⟩
  · refine .inl ⟨used, same, ?_, ?_⟩
    · unfold Responder.unread
      rw [needs, input, holds]
      split
      · rfl
      · exact (List.append_assoc _ _ _).symm
    · unfold Wire.unread
      rw [needs, kept, heard.reading]
      split
      · rfl
      · exact (List.append_assoc _ _ _).symm
  · refine .inr ⟨given, ?_, ?_⟩
    · unfold Responder.unread
      rw [if_pos needs, input]
    · unfold Wire.unread
      rw [if_pos needs, kept]

/-- The stream once bytes came in. -/
theorem Heard.stream {before after : Wire E} {origin : Origin} {taken : Marked}
    (heard : Heard before origin taken turned after) :
    marked (after.sent origin) = marked (before.sent origin) ++ taken ++
      turned.zipIdx ((before.sent origin).length + (textOf taken).length) := by
  rw [heard.sent, Function.update_self, marked_append, List.zipIdx_append, ← heard.places,
    List.append_assoc]

private theorem unspliced_heard {wire next : Wire E} (unspliced : Unspliced fed ends types wire)
    (ordered : next.responder.Ordered) {origin : Origin} {taken : Marked} {turned : Text}
    (heard : Heard wire origin taken turned next)
    (separate : taken ≠ [] → wire.gap origin = true → ∀ i,
      wire.responder.find origin = some i → unfinished ends (wire.responder.unread fed i) = [])
    {lost : Bool} (gap : next.gap = Function.update wire.gap origin lost)
    (whole : lost = false → turned = [] ∧ taken ≠ []) :
    Unspliced fed ends types next := by
  have joins (j : Fin 3) (used : (wire.responder.slots j).used = true)
      (mine : (wire.responder.slots j).origin = origin) (something : taken ≠ []) :
      unfinished (endsMarked ends) (wire.unread j) <:+ marked (wire.sent origin) ∨
        unfinished (endsMarked ends) (wire.unread j) = [] := by
    subst mine
    cases gapped : wire.gap (wire.responder.slots j).origin with
    | false => exact .inl (unspliced.latest j used gapped)
    | true =>
      have none := separate something gapped j (unspliced.ordered.find_of_used used)
      rw [← unspliced.read j used, unfinished_textOf] at none
      exact .inr (List.map_eq_nil_iff.mp none)
  have known (session : Nat) (entry : Origin × Fin 3)
      (before : wire.responder.sessions[session]? = some entry) :
      next.responder.sessions[session]? = some entry := by
    obtain ⟨more, grown⟩ := heard.sessions
    rw [grown]
    exact Responder.known_append before
  constructor
  case ordered => exact ordered
  case read =>
    intro j now
    rcases unread_heard heard fed now with ⟨used, -, text, marks⟩ | ⟨-, text, marks⟩
    · rw [text, marks, textOf_append, unspliced.read j used]
    · rw [text, marks]
  case slot =>
    intro j now
    rcases unread_heard heard fed now with ⟨used, same, -, marks⟩ | ⟨given, -, marks⟩
    · rw [same, marks]
      have before := unspliced.slot j used
      split
      · rename_i mine
        by_cases nothing : taken = []
        · rw [nothing, List.append_nil, heard.sent]
          exact contiguous_update before origin _
        · rw [mine] at before ⊢
          rw [heard.stream]
          exact (before.append (joins j used mine nothing)).1.later _
      · rw [List.append_nil, heard.sent]
        exact contiguous_update before origin _
    · rw [given, marks, heard.stream]
      exact ((contiguous_nil (marked (wire.sent origin))).append (.inr rfl)).1.later _
  case latest =>
    intro j now settled
    rw [gap] at settled
    rcases unread_heard heard fed now with ⟨used, same, -, marks⟩ | ⟨given, -, marks⟩
    · rw [same] at settled ⊢
      rw [marks]
      split
      · rename_i mine
        rw [mine, Function.update_self] at settled
        obtain ⟨rfl, something⟩ := whole settled
        have before := unspliced.slot j used
        rw [mine] at before ⊢
        rw [heard.stream, List.zipIdx_nil, List.append_nil]
        exact (before.append (joins j used mine something)).2
      · rename_i other
        rw [Function.update_of_ne other] at settled
        rw [List.append_nil, heard.sent, Function.update_of_ne other]
        exact unspliced.latest j used settled
    · rw [given, Function.update_self] at settled
      obtain ⟨rfl, _⟩ := whole settled
      rw [given, marks, heard.stream, List.zipIdx_nil, List.append_nil]
      exact ((contiguous_nil (marked (wire.sent origin))).append (.inr rfl)).2
  case held =>
    intro pass under
    rw [heard.pump] at under
    rw [Responder.holds_eq heard.typings heard.pump, heard.reading]
    exact unspliced.held pass under
  case pass =>
    intro pass under
    rw [heard.pump] at under
    rw [heard.reading, heard.sent]
    exact contiguous_update (unspliced.pass pass under) origin _
  case typed =>
    rw [heard.submitted, heard.madeOf, heard.sent]
    exact unspliced.typed.imp fun command marks made => made.later origin _
  case pending =>
    intro i held session sender owns entry
    rw [heard.typings] at held owns ⊢
    obtain ⟨of, before⟩ := unspliced.ordered.owner i session owns
    have same := (known session _ before).symm.trans entry
    cases same
    rw [heard.heldFrom, heard.sent]
    exact (unspliced.pending i held session sender owns before).later origin _

theorem unspliced_hear {wire : Wire E} (unspliced : Unspliced fed ends types wire)
    (target : LinkTarget) (origin : Origin) (timestamp : UInt64) (plaintext : Text)
    (locked : Bool)
    (separate : Separate fed ends wire (.terminalIn target origin timestamp plaintext locked))
    (ordered : (wire.responder.onTerminalIn target origin timestamp plaintext locked).Ordered) :
    Unspliced fed ends types (wire.hear target origin timestamp plaintext locked) := by
  by_cases nothing : plaintext = []
  · subst nothing
    unfold Wire.hear Responder.onTerminalIn
    rw [if_pos rfl, if_pos rfl]
    exact unspliced
  obtain ⟨turned, parted⟩ := accepted_split wire.responder origin plaintext locked
  have heard := heard_hear unspliced.ordered target origin timestamp nothing locked parted
  have responder : (wire.hear target origin timestamp plaintext locked).responder =
      wire.responder.onTerminalIn target origin timestamp plaintext locked := by
    unfold Wire.hear
    rw [if_neg nothing]
  have gap : (wire.hear target origin timestamp plaintext locked).gap =
      Function.update wire.gap origin (wire.responder.loses origin plaintext locked) := by
    unfold Wire.hear
    rw [if_neg nothing]
  have unmarked : wire.accepted origin plaintext locked = [] ↔
      wire.responder.accepted origin plaintext locked = [] := List.zipIdx_eq_nil_iff
  refine unspliced_heard unspliced (responder ▸ ordered) heard
    (fun something => separate (mt unmarked.mpr something)) gap fun kept => ?_
  have lengths := congrArg List.length parted
  simp only [Responder.loses, decide_eq_false_iff_not, not_lt, List.length_append] at kept lengths
  have none : turned = [] := List.length_eq_zero_iff.mp (by omega)
  refine ⟨none, mt unmarked.mp ?_⟩
  rw [none, List.append_nil] at parted
  rw [parted]
  exact nothing

end BallyOS.Terminal
