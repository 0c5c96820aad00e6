import BallyOS.Terminal.Marks

/-! Whether a submitted line is one that its origin typed in one piece. Bytes that the
buffer or the lock turn away leave a gap, and nothing tells the editor of it. -/
namespace BallyOS.Terminal
open Library

variable {E : Type} {fed : E → Text} {ends : Text → Bool} {types : Text → Text → Prop}

/-! ### The pump -/

private theorem holds_take {world : Responder E} (idle : world.pump = .idle) (i j : Fin 3)
    (now : UInt64) :
    (world.pumpTake i now).holds fed j =
      if j = i then world.unread fed i else world.holds fed j := by
  have before (k : Fin 3) : world.holds fed k = fed (world.typings k).editor := by
    unfold Responder.holds
    rw [idle]
  unfold Responder.unread Responder.holds
  simp only [idle, Responder.pumpTake, Responder.passOf]
  by_cases here : i = j
  · subst here
    rw [if_pos rfl, if_pos rfl]
    split
    · rfl
    · rfl
  · rw [if_neg here, if_neg (Ne.symm here)]
    rfl

private theorem unread_take {world : Responder E} (idle : world.pump = .idle) (i j : Fin 3)
    (now : UInt64) : (world.pumpTake i now).unread fed j = world.unread fed j := by
  by_cases here : j = i
  · subst here
    rw [Responder.unread, Responder.pumpTake_self, holds_take idle, if_pos rfl]
    simp
  · refine Responder.unread_eq ?_ ?_ ?_
    · rw [Responder.pumpTake_other world now here]
    · rw [Responder.pumpTake_other world now here]
    · rw [holds_take idle, if_neg here]

/-- The pass reads all that the slot's origin has unread. -/
theorem reading_take (wire : Wire E) (i : Fin 3) (now : UInt64) :
    (wire.take i now).reading i = wire.unread i := by
  apply (Function.update_self i _ wire.reading).trans
  unfold Wire.unread
  split <;> rfl

private theorem marks_take (wire : Wire E) (i j : Fin 3) (now : UInt64) :
    (wire.take i now).unread j = wire.unread j := by
  by_cases here : j = i
  · subst here
    have settled : ((wire.take j now).responder.slots j).needsEditorReset = false :=
      congrArg Slot.needsEditorReset (Responder.pumpTake_self wire.responder j now)
    have emptied : (wire.take j now).buffered j = [] := Function.update_self ..
    rw [Wire.unread, settled, if_neg Bool.false_ne_true, emptied, List.append_nil, reading_take]
  · have slot : (wire.take i now).responder.slots j = wire.responder.slots j :=
      Responder.pumpTake_other wire.responder now here
    have reading : (wire.take i now).reading j = wire.reading j := Function.update_of_ne here ..
    have buffered : (wire.take i now).buffered j = wire.buffered j := Function.update_of_ne here ..
    rw [Wire.unread, slot, reading, buffered, Wire.unread]

private theorem unspliced_take {wire : Wire E} (unspliced : Unspliced fed ends types wire)
    (idle : wire.responder.pump = .idle) {i : Fin 3}
    (used : (wire.responder.slots i).used = true) (now : UInt64) :
    Unspliced fed ends types (wire.take i now) := by
  have kept (j : Fin 3) := Responder.pumpTake_kept wire.responder i j now
  constructor
  case ordered => exact Responder.ordered_take unspliced.ordered idle used now
  case read =>
    intro j usedJ
    rw [marks_take]
    exact (unspliced.read j ((kept j).1 ▸ usedJ)).trans (unread_take idle i j now).symm
  case slot =>
    intro j usedJ
    rw [marks_take]
    dsimp only [Wire.take] at usedJ ⊢
    rw [(kept j).2.1]
    exact unspliced.slot j ((kept j).1 ▸ usedJ)
  case latest =>
    intro j usedJ settled
    rw [marks_take]
    dsimp only [Wire.take] at usedJ settled ⊢
    rw [(kept j).2.1] at settled ⊢
    exact unspliced.latest j ((kept j).1 ▸ usedJ) settled
  case held =>
    intro pass under
    cases under
    have holds : (wire.responder.pumpTake i now).holds fed i = wire.responder.unread fed i := by
      rw [holds_take idle, if_pos rfl]
    exact (congrArg textOf (reading_take wire i now)).trans
      ((unspliced.read i used).trans holds.symm)
  case pass =>
    intro pass under
    cases under
    dsimp only [Responder.passOf]
    rw [reading_take]
    exact unspliced.slot i used
  case typed => exact unspliced.typed
  case pending => exact unspliced.pending

/-- Bytes of which a whole piece at the head may have gone. -/
def Cuts (ends : Marked → Bool) (before left : Marked) : Prop :=
  before = left ∨ ∃ piece, cut ends piece = ([piece], []) ∧ before = piece ++ left

private theorem Cuts.contiguous {cuts : Marked → Bool} {before left stream : Marked}
    (parted : Cuts cuts before left) (input : Marked)
    (contiguous : Contiguous cuts stream (before ++ input)) :
    Contiguous cuts stream (left ++ input) := by
  obtain rfl | ⟨piece, whole, rfl⟩ := parted
  · exact contiguous
  · rw [List.append_assoc] at contiguous
    exact (contiguous.tail whole).2.1

private theorem Cuts.unfinished {cuts : Marked → Bool} {before left : Marked}
    (parted : Cuts cuts before left) (input : Marked) :
    unfinished cuts (left ++ input) = unfinished cuts (before ++ input) := by
  obtain rfl | ⟨piece, whole, rfl⟩ := parted
  · rfl
  · rw [List.append_assoc, Library.unfinished, Library.unfinished, cut_piece whole]

/-- What a pass makes of a typing: what its editor is left with, the line it holds
then, and the line it may have submitted. -/
structure Goes (fed : E → Text) (pass : Pass) (left held : Text) (may : Option Text)
    (before after : Responder E) : Prop where
  left : fed (after.typings pass.index).editor = left
  held : (after.typings pass.index).pendingLine = held
  submitted : after.submitted = before.submitted ∨ ∃ line ∈ may,
    after.submitted = before.submitted ++ [⟨pass.origin, pass.session, line⟩]

section Goes

variable {pass : Pass} {left held : Text} {may : Option Text} {world : Responder E}
  {typing : Typing E} {config : Config E}

private theorem goes_settle (fits : fed typing.editor = left) (holds : typing.pendingLine = held)
    (out : Text) : Goes fed pass left held none world (world.settle pass out typing) where
  left := by rw [Responder.settle_self, fits]
  held := by rw [Responder.settle_self, holds]
  submitted := .inl rfl

private theorem goes_refuse (reads : Reads config.editor fed ends types)
    (fits : fed typing.editor = left) (holds : typing.pendingLine = held) (out line : Text) :
    Goes fed pass left held none world
      (Responder.refuseLine config world pass out typing line) := by
  have told := Responder.refuseLine_self config world pass out typing line
  refine ⟨?_, (congrArg Typing.pendingLine told).trans holds, .inl rfl⟩
  apply (congrArg (fed ·.editor) told).trans
  rw [reads.writeResponse, fits]

private theorem goes_submit (reads : Reads config.editor fed ends types)
    (fits : fed typing.editor = left) (holds : typing.pendingLine = held) (out line : Text)
    (accepted : Bool) : Goes fed pass left held (some line) world
      (Responder.submitLine config world pass out typing line accepted) := by
  cases accepted with
  | true =>
    have taken := Responder.acceptLine_self world pass out typing line
    exact ⟨(congrArg (fed ·.editor) taken).trans fits,
      (congrArg Typing.pendingLine taken).trans holds, .inr ⟨line, rfl, rfl⟩⟩
  | false =>
    have refused : Goes fed pass left held none world
        (Responder.refuseLine config world pass out typing line) :=
      goes_refuse reads fits holds out line
    exact ⟨refused.left, refused.held, .inl rfl⟩

private theorem goes_takeLine (reads : Reads config.editor fed ends types) (typing : Typing E)
    (fits : fed typing.editor = left) (out line : Text) (accepted : Bool) :
    Goes fed pass left
      (if typing.awaitingResult ∧ typing.pendingLine = [] then line else typing.pendingLine)
      (some line) world (Responder.takeLine config world pass out typing line accepted) := by
  unfold Responder.takeLine
  by_cases awaits : typing.awaitingResult = true
  · rw [if_pos awaits]
    by_cases nothing : typing.pendingLine = []
    · rw [if_pos nothing, if_pos ⟨awaits, nothing⟩]
      refine ⟨?_, ?_, .inl rfl⟩
      · rw [Responder.settle_self]
        exact fits
      · rw [Responder.settle_self]
    · rw [if_neg nothing, if_neg fun both => nothing both.2]
      have refused : Goes fed pass left typing.pendingLine none world
          (Responder.refuseLine config world pass out typing line) :=
        goes_refuse reads fits rfl out line
      exact ⟨refused.left, refused.held, .inl rfl⟩
  · rw [if_neg awaits, if_neg fun both => awaits both.1]
    exact goes_submit reads fits rfl out line accepted

private theorem Goes.typed {line : Text} {after : Responder E}
    (goes : Goes fed pass left held may (world.typeLine pass line) after) :
    Goes fed pass left held may world after :=
  ⟨goes.left, goes.held, goes.submitted⟩

private theorem goes_finish (reads : Reads config.editor fed ends types)
    (fits : fed typing.editor = left) (holds : typing.pendingLine = held) (out : Text) :
    Goes fed pass left held none world
      (Responder.pumpFinish config world pass out typing) where
  left := by
    rw [Responder.pumpFinish_self, ← fits]
    unfold Typing.finish
    split
    · exact reads.writeAsyncOutput _ _
    · split
      · exact reads.refreshLine _
      · rfl
  held := by
    rw [Responder.pumpFinish_self, (Responder.finish_keeps config typing pass out).2.2, holds]
  submitted := .inl rfl

end Goes

/-- What a pass does to the marks: the editor reads on where it was, and the line that
is held, or was submitted, is a whole one. -/
structure Follows (fed : E → Text) (types : Text → Text → Prop) (pass : Pass)
    (before after : Wire E) : Prop where
  sent : after.sent = before.sent
  gap : after.gap = before.gap
  buffered : after.buffered = before.buffered
  reading : ∀ i, i ≠ pass.index → after.reading i = before.reading i
  heldFrom : ∀ i, i ≠ pass.index → after.heldFrom i = before.heldFrom i
  left : textOf (after.reading pass.index) = fed (after.responder.typings pass.index).editor
  held : (after.responder.typings pass.index).pendingLine ≠ [] → Whole types before.sent
    pass.origin (after.responder.typings pass.index).pendingLine (after.heldFrom pass.index)
  submitted : after.responder.submitted = before.responder.submitted ∧
      after.madeOf = before.madeOf ∨
    ∃ line marks, after.responder.submitted =
        before.responder.submitted ++ [⟨pass.origin, pass.session, line⟩] ∧
      after.madeOf = before.madeOf ++ [marks] ∧ Whole types before.sent pass.origin line marks

/-- A line is credited with its marks when it is submitted. -/
theorem credit_of_goes {wire : Wire E} {next : Responder E} {pass : Pass} {may : Option Text}
    (goes : Goes fed pass left held may wire.responder next) {marks : Marked}
    (whole : ∀ line ∈ may, Whole types wire.sent pass.origin line marks) :
    next.submitted = wire.responder.submitted ∧ wire.credit next marks = wire.madeOf ∨
      ∃ line marks', next.submitted =
          wire.responder.submitted ++ [⟨pass.origin, pass.session, line⟩] ∧
        wire.credit next marks = wire.madeOf ++ [marks'] ∧
        Whole types wire.sent pass.origin line marks' := by
  obtain same | ⟨line, mine, grown⟩ := goes.submitted
  · exact .inl ⟨same, if_pos same⟩
  · refine .inr ⟨line, marks, grown, if_neg ?_, whole line mine⟩
    rw [grown]
    exact fun same => absurd (List.append_right_eq_self.mp same) (List.cons_ne_nil _ _)

private theorem Responder.Passed.same_pass {pass other : Pass} {before after : Responder E}
    (passed : before.Passed pass after) (under : after.pump.pass = some other) : other = pass := by
  rcases passed.pump with idle | ⟨out, polling⟩
  · rw [idle] at under
    contradiction
  · rw [polling] at under
    exact (Option.some.inj under).symm

private theorem unspliced_of_passed {wire next : Wire E} {pass : Pass}
    (unspliced : Unspliced fed ends types wire)
    (under : wire.responder.pump.pass = some pass)
    (passed : Responder.Passed wire.responder pass next.responder)
    (cuts : Cuts (endsMarked ends) (wire.reading pass.index) (next.reading pass.index))
    (follows : Follows fed types pass wire next) : Unspliced fed ends types next := by
  have ordered := Responder.ordered_of_passed unspliced.ordered under passed
  have holding (i : Fin 3) :
      next.responder.holds fed i = fed (next.responder.typings i).editor := by
    unfold Responder.holds
    rcases passed.pump with idle | ⟨out, polling⟩
    · rw [idle]
    · rw [polling]
  have elsewhere (i : Fin 3) (other : i ≠ pass.index) :
      next.responder.holds fed i = wire.responder.holds fed i := by
    have before : wire.responder.holds fed i = fed (wire.responder.typings i).editor := by
      unfold Responder.holds
      split
      · rename_i taken same
        rw [same] at under
        cases under
        exact if_neg (Ne.symm other)
      · rfl
    rw [holding, before, passed.others i other]
  -- Either the marks of a slot are as before, or some went from their head.
  have unread (i : Fin 3) : next.unread i = wire.unread i ∧
        next.responder.unread fed i = wire.responder.unread fed i ∨
      i = pass.index ∧ next.unread i = next.reading pass.index ++ wire.buffered pass.index ∧
        wire.unread i = wire.reading pass.index ++ wire.buffered pass.index ∧
        next.responder.unread fed i =
          next.responder.holds fed pass.index ++ (wire.responder.slots pass.index).input ∧
        wire.responder.unread fed i =
          wire.responder.holds fed pass.index ++ (wire.responder.slots pass.index).input := by
    unfold Wire.unread Responder.unread
    rw [passed.slots, follows.buffered]
    cases needs : (wire.responder.slots i).needsEditorReset with
    | true => exact .inl ⟨rfl, rfl⟩
    | false =>
      simp only [Bool.false_eq_true, if_false]
      by_cases same : i = pass.index
      · subst same
        exact .inr ⟨rfl, rfl, rfl, rfl, rfl⟩
      · rw [follows.reading i same, elsewhere i same]
        exact .inl ⟨rfl, rfl⟩
  constructor
  case ordered => exact ordered
  case read =>
    intro i used
    rw [passed.slots] at used
    have before := unspliced.read i used
    rcases unread i with ⟨marks, text⟩ | ⟨rfl, marks, was, text, wasText⟩
    · rw [marks, text, before]
    · rw [was, wasText, textOf_append, unspliced.held pass under] at before
      rw [marks, text, textOf_append, follows.left, holding, List.append_cancel_left before]
  case slot =>
    intro i used
    rw [passed.slots] at used ⊢
    have before := unspliced.slot i used
    rw [follows.sent]
    rcases unread i with ⟨marks, -⟩ | ⟨-, marks, was, -⟩
    · rw [marks]
      exact before
    · rw [was] at before
      rw [marks]
      exact cuts.contiguous _ before
  case latest =>
    intro i used settled
    rw [passed.slots] at used settled ⊢
    rw [follows.gap] at settled
    have before := unspliced.latest i used settled
    rw [follows.sent]
    rcases unread i with ⟨marks, -⟩ | ⟨-, marks, was, -⟩
    · rw [marks]
      exact before
    · rw [was] at before
      rw [marks, cuts.unfinished]
      exact before
  case held =>
    intro other same
    cases passed.same_pass same
    rw [holding, follows.left]
  case pass =>
    intro other same
    cases passed.same_pass same
    have before := unspliced.pass pass under
    rw [← List.append_nil (wire.reading pass.index)] at before
    rw [follows.sent, ← List.append_nil (next.reading pass.index)]
    exact cuts.contiguous [] before
  case typed =>
    rw [follows.sent]
    obtain ⟨same, made⟩ | ⟨line, marks, grown, made, whole⟩ := follows.submitted
    · rw [same, made]
      exact unspliced.typed
    · rw [grown, made]
      exact List.rel_append unspliced.typed (.cons whole .nil)
  case pending =>
    intro i held session origin owns entry
    rw [follows.sent]
    by_cases same : i = pass.index
    · subst same
      rw [passed.owner] at owns
      cases owns
      rw [passed.sessions, unspliced.ordered.pass pass under] at entry
      cases entry
      exact follows.held held
    · rw [passed.others i same] at held owns ⊢
      rw [passed.sessions] at entry
      rw [follows.heldFrom i same]
      exact unspliced.pending i held session origin owns entry

private theorem fed_prepare {config : Config E} (reads : Reads config.editor fed ends types)
    (typing : Typing E) (pass : Pass) :
    fed (typing.prepare config pass).1.editor =
      (if pass.needsReset then [] else fed typing.editor) ++ pass.input := by
  have restarted : fed (typing.restart config pass).editor =
      if pass.needsReset then [] else fed typing.editor := by
    unfold Typing.restart
    split
    · exact reads.reset _
    · rfl
  have painted (typing : Typing E) : fed (typing.paint config).1.editor = fed typing.editor := by
    unfold Typing.paint
    split
    · rfl
    · exact reads.setPrompt _ _
  have answered (typing : Typing E) (out : Text) :
      fed (typing.answer config pass.result out).1.editor = fed typing.editor := by
    unfold Typing.answer
    split
    · exact reads.writeResponse _ _
    · rfl
  have heard (typing : Typing E) :
      fed (typing.hear config pass.input).editor = fed typing.editor ++ pass.input := by
    unfold Typing.hear
    split
    · rename_i nothing
      rw [nothing, List.append_nil]
    · exact reads.feed _ _
  unfold Typing.prepare
  dsimp only
  rw [heard, answered, painted, restarted]

private theorem unspliced_begin {config : Config E} {wire : Wire E} {pass : Pass}
    (reads : Reads config.editor fed ends types) (unspliced : Unspliced fed ends types wire)
    (taken : wire.responder.pump = .taken pass) (accepted : Bool) :
    Unspliced fed ends types (wire.begin config pass accepted) := by
  have under : wire.responder.pump.pass = some pass := by rw [taken]; rfl
  have passed := Responder.passed_begin unspliced.ordered taken config accepted
  have reading : textOf (wire.reading pass.index) =
      fed ((wire.responder.typings pass.index).prepare config pass).1.editor := by
    rw [fed_prepare reads, unspliced.held pass under, Responder.holds, taken]
    exact if_pos rfl
  have prepared := (Responder.prepare_spec config (wire.responder.typings pass.index) pass).2.2
  -- A line that was held back is of the session that the pass works for.
  have whole (waiting :
      ((wire.responder.typings pass.index).prepare config pass).1.pendingLine ≠ []) :
      Whole types wire.sent pass.origin
        ((wire.responder.typings pass.index).prepare config pass).1.pendingLine
        (wire.heldFrom pass.index) := by
    rw [prepared] at waiting ⊢
    unfold Typing.restart at waiting ⊢
    split at waiting
    · exact absurd rfl waiting
    · rename_i settled
      rw [if_neg settled]
      have owner := (unspliced.ordered.taken pass taken).mp (by simpa using settled)
      exact unspliced.pending pass.index waiting pass.session pass.origin owner
        (unspliced.ordered.pass pass under)
  have follows : ∀ {held : Text} {may : Option Text},
      Goes fed pass (fed ((wire.responder.typings pass.index).prepare config pass).1.editor) held
        may wire.responder (wire.responder.pumpBegin config pass accepted) →
      (held ≠ [] → Whole types wire.sent pass.origin held (wire.heldFrom pass.index)) →
      (∀ line ∈ may, Whole types wire.sent pass.origin line (wire.heldFrom pass.index)) →
      Follows fed types pass wire (wire.begin config pass accepted) := by
    intro held may goes holds submits
    refine ⟨rfl, rfl, rfl, fun _ _ => rfl, fun _ _ => rfl, reading.trans goes.left.symm, ?_,
      credit_of_goes goes submits⟩
    intro waits
    exact goes.held ▸ holds (goes.held ▸ waits)
  refine unspliced_of_passed unspliced under passed (.inl rfl) ?_
  by_cases waits :
      ((wire.responder.typings pass.index).prepare config pass).1.awaitingResult = false ∧
        ((wire.responder.typings pass.index).prepare config pass).1.pendingLine ≠ []
  · have goes : Goes fed pass
        (fed ((wire.responder.typings pass.index).prepare config pass).1.editor) []
        (some ((wire.responder.typings pass.index).prepare config pass).1.pendingLine)
        wire.responder (wire.responder.pumpBegin config pass accepted) := by
      unfold Responder.pumpBegin
      dsimp only
      rw [if_pos waits]
      refine goes_submit reads ?_ ?_ _ _ accepted
      · rfl
      · rfl
    refine follows goes (absurd rfl) fun line mine => ?_
    cases mine
    exact whole waits.2
  · have goes : Goes fed pass
        (fed ((wire.responder.typings pass.index).prepare config pass).1.editor)
        ((wire.responder.typings pass.index).prepare config pass).1.pendingLine none
        wire.responder (wire.responder.pumpBegin config pass accepted) := by
      unfold Responder.pumpBegin
      dsimp only
      rw [if_neg waits]
      exact goes_settle rfl rfl _
    exact follows goes whole fun _ mine => by contradiction

/-- A line is made of the first bytes that the editor read. -/
theorem unspliced_typed {config : Config E} {wire : Wire E} {pass : Pass} {out line : Text}
    (reads : Reads config.editor fed ends types) (unspliced : Unspliced fed ends types wire)
    (polling : wire.responder.pump = .polling pass out)
    (polled : (config.editor.poll (wire.responder.typings pass.index).editor).2.2 = some line)
    (accepted : Bool) : Unspliced fed ends types (wire.poll fed config pass out accepted) := by
  have under : wire.responder.pump.pass = some pass := by rw [polling]; rfl
  have passed := Responder.passed_poll unspliced.ordered polling config accepted
  have reading : textOf (wire.reading pass.index) =
      fed (wire.responder.typings pass.index).editor := by
    rw [unspliced.held pass under, Responder.holds, polling]
  obtain ⟨piece, parted, ended, typed⟩ := reads.polled _ line polled
  -- The marks of the piece are the first of those the editor reads.
  have count : (fed (wire.responder.typings pass.index).editor).length -
      (fed (config.editor.poll (wire.responder.typings pass.index).editor).1).length =
        piece.length := by
    rw [parted, List.length_append, Nat.add_sub_cancel]
  have taken : textOf ((wire.reading pass.index).take piece.length) = piece := by
    rw [textOf, List.map_take, ← textOf, reading, parted, List.take_left]
  have rest : textOf ((wire.reading pass.index).drop piece.length) =
      fed (config.editor.poll (wire.responder.typings pass.index).editor).1 := by
    rw [textOf, List.map_drop, ← textOf, reading, parted, List.drop_left]
  have cuts : cut (endsMarked ends) ((wire.reading pass.index).take piece.length) =
      ([(wire.reading pass.index).take piece.length], []) :=
    cut_of_map (f := Prod.fst) (by rw [← textOf, taken]; exact ended)
  have whole : Whole types wire.sent pass.origin line
      ((wire.reading pass.index).take piece.length) := by
    refine ⟨by rw [taken]; exact typed, ?_⟩
    have contiguous := unspliced.pass pass under
    rw [← List.take_append_drop piece.length (wire.reading pass.index)] at contiguous
    exact (contiguous.tail cuts).1
  have held (waiting : (wire.responder.typings pass.index).pendingLine ≠ []) :=
    unspliced.pending pass.index waiting pass.session pass.origin
      (unspliced.ordered.polling pass out polling) (unspliced.ordered.pass pass under)
  have taking : wire.poll fed config pass out accepted = { wire with
      responder := wire.responder.pumpPoll config pass out accepted
      reading := Function.update wire.reading pass.index
        ((wire.reading pass.index).drop piece.length)
      heldFrom :=
        if (wire.responder.typings pass.index).awaitingResult ∧
            (wire.responder.typings pass.index).pendingLine = [] then
          Function.update wire.heldFrom pass.index ((wire.reading pass.index).take piece.length)
        else wire.heldFrom
      madeOf := wire.credit (wire.responder.pumpPoll config pass out accepted)
        ((wire.reading pass.index).take piece.length) } := by
    simp only [Wire.poll, polled, count]
  rw [taking]
  refine unspliced_of_passed unspliced under passed (.inr ⟨_, cuts, ?_⟩) ?_
  · dsimp only
    rw [Function.update_self, List.take_append_drop]
  have goes : Goes fed pass (fed (config.editor.poll (wire.responder.typings pass.index).editor).1)
      (if (wire.responder.typings pass.index).awaitingResult ∧
          (wire.responder.typings pass.index).pendingLine = [] then line
        else (wire.responder.typings pass.index).pendingLine) (some line) wire.responder
      (wire.responder.pumpPoll config pass out accepted) := by
    obtain ⟨editor, emitted, found⟩ : ∃ editor emitted,
        config.editor.poll (wire.responder.typings pass.index).editor =
          (editor, emitted, some line) := ⟨_, _, by rw [← polled]⟩
    have taken : wire.responder.pumpPoll config pass out accepted =
        Responder.takeLine config (wire.responder.typeLine pass line) pass (out ++ emitted)
          { wire.responder.typings pass.index with editor } line accepted := by
      simp only [Responder.pumpPoll, found]
    rw [taken, found]
    exact Goes.typed (goes_takeLine reads { wire.responder.typings pass.index with editor } rfl _
      line accepted)
  refine ⟨rfl, rfl, rfl, fun i other => Function.update_of_ne other _ _, fun i other => ?_, ?_, ?_,
    credit_of_goes goes fun _ mine => ?_⟩
  · dsimp only
    split
    · exact Function.update_of_ne other _ _
    · rfl
  · dsimp only
    rw [Function.update_self, rest, goes.left]
  · dsimp only
    rw [goes.held]
    split
    · rw [Function.update_self]
      exact fun _ => whole
    · exact held
  · cases mine
    exact whole

private theorem unspliced_poll {config : Config E} {wire : Wire E} {pass : Pass} {out : Text}
    (reads : Reads config.editor fed ends types) (unspliced : Unspliced fed ends types wire)
    (polling : wire.responder.pump = .polling pass out) (accepted : Bool) :
    Unspliced fed ends types (wire.poll fed config pass out accepted) := by
  have under : wire.responder.pump.pass = some pass := by rw [polling]; rfl
  have passed := Responder.passed_poll unspliced.ordered polling config accepted
  have reading : textOf (wire.reading pass.index) =
      fed (wire.responder.typings pass.index).editor := by
    rw [unspliced.held pass under, Responder.holds, polling]
  have whole (waiting : (wire.responder.typings pass.index).pendingLine ≠ []) :=
    unspliced.pending pass.index waiting pass.session pass.origin
      (unspliced.ordered.polling pass out polling) (unspliced.ordered.pass pass under)
  cases polled : (config.editor.poll (wire.responder.typings pass.index).editor).2.2 with
  | none =>
    have same := reads.unpolled _ polled
    have goes : Goes fed pass
        (fed (config.editor.poll (wire.responder.typings pass.index).editor).1)
        (wire.responder.typings pass.index).pendingLine none wire.responder
        (wire.responder.pumpPoll config pass out accepted) := by
      unfold Responder.pumpPoll
      dsimp only
      split
      · rename_i found
        rw [found] at polled
        contradiction
      · rename_i found
        rw [found]
        refine goes_finish reads ?_ ?_ _
        · rfl
        · rfl
    have stays : wire.poll fed config pass out accepted =
        { wire with responder := wire.responder.pumpPoll config pass out accepted } := by
      simp only [Wire.poll, polled]
    rw [stays]
    refine unspliced_of_passed unspliced under passed (.inl rfl)
      ⟨rfl, rfl, rfl, fun _ _ => rfl, fun _ _ => rfl, ?_, ?_, ?_⟩
    · exact reading.trans (same.symm.trans goes.left.symm)
    · rw [goes.held]
      exact whole
    · obtain kept | ⟨line, mine, -⟩ := goes.submitted
      · exact .inl ⟨kept, rfl⟩
      · contradiction
  | some line =>
    exact unspliced_typed reads unspliced polling polled accepted

/-! ### Whole runs -/

def Wire.start (editor : E) : Wire E := { responder := Terminal.start editor }

private theorem unspliced_start (editor : E) : Unspliced fed ends types (Wire.start editor) where
  ordered := Responder.ordered_start editor
  read := fun _ used => by contradiction
  slot := fun _ used => by contradiction
  latest := fun _ used => by contradiction
  held := fun _ under => by contradiction
  pass := fun _ under => by contradiction
  typed := .nil
  pending := fun _ held => absurd rfl held

private theorem unspliced_step {config : Config E} {wire next : Wire E} {event : Event}
    (reads : Reads config.editor fed ends types) (unspliced : Unspliced fed ends types wire)
    (separate : Separate fed ends wire event) (stepped : wire.step fed config event = some next) :
    Unspliced fed ends types next := by
  obtain ⟨responder, moved, rfl⟩ := Option.map_eq_some_iff.mp stepped
  have ordered := Responder.ordered_step unspliced.ordered moved
  cases event with
  | terminalIn target origin timestamp plaintext locked =>
    cases moved
    exact unspliced_hear unspliced target origin timestamp plaintext locked separate ordered
  | bind target =>
    cases moved
    exact unspliced_beside unspliced ordered (Responder.beside_of_slots rfl rfl rfl rfl rfl)
  | unbind target locked =>
    simp only [Terminal.step, Option.ite_none_left_eq_some, Option.some.injEq] at moved
    obtain ⟨_, rfl⟩ := moved
    exact unspliced_beside unspliced ordered (Responder.beside_unbind _ target locked)
  | asyncOutput origin text locked =>
    cases moved
    exact unspliced_beside unspliced ordered (Responder.beside_async _ origin text locked)
  | commandResult text status =>
    simp only [Terminal.step] at moved
    split at moved
    · rename_i command rest queued
      cases moved
      have delivered := Responder.beside_deliver
        { wire.responder with queue := rest } command.origin text status
      exact unspliced_beside unspliced ordered ⟨delivered.slots, delivered.typings,
        delivered.pump, delivered.sessions, delivered.submitted⟩
    · contradiction
  | pumpTake i now =>
    simp only [Terminal.step] at moved
    split at moved
    · rename_i idle
      simp only [Option.ite_none_right_eq_some, Option.some.injEq] at moved
      obtain ⟨used, rfl⟩ := moved
      exact unspliced_take unspliced idle used now
    · contradiction
  | pumpBegin accepted =>
    simp only [Terminal.step] at moved
    split at moved
    · rename_i taken
      cases moved
      simp only [taken]
      exact unspliced_begin reads unspliced taken accepted
    · contradiction
  | pumpPoll accepted =>
    simp only [Terminal.step] at moved
    split at moved
    · rename_i polling
      cases moved
      simp only [polling]
      exact unspliced_poll reads unspliced polling accepted
    · contradiction

/-! ### The plain editor -/

def endsAtReturn (text : Text) : Bool := text.getLast? = some '\r'

def typesAsIs (piece line : Text) : Prop := piece = line ++ ['\r']

private theorem cutFrom_unreturned (started text : Text) (none : '\r' ∉ text) :
    cutFrom endsAtReturn started text = ([], started ++ text) := by
  induction text generalizing started with
  | nil => rw [List.append_nil, cutFrom]
  | cons c text ih =>
    rw [List.mem_cons, not_or] at none
    have goes : endsAtReturn (started ++ [c]) = false := by
      simp [endsAtReturn, Ne.symm none.1]
    rw [cutFrom, goes, if_neg Bool.false_ne_true, ih _ none.2, List.append_assoc]
    rfl

private theorem cut_returned (line : Text) (none : '\r' ∉ line) :
    cut endsAtReturn (line ++ ['\r']) = ([line ++ ['\r']], []) := by
  have before : unfinished endsAtReturn line = line :=
    congrArg Prod.snd (cutFrom_unreturned [] line none)
  rw [cut_append, before, cut, cutFrom_unreturned [] line none]
  simp [cutFrom, endsAtReturn]

private theorem dropWhile_unreturned (text : Text) (member : '\r' ∈ text) :
    text.dropWhile (· ≠ '\r') = '\r' :: (text.dropWhile (· ≠ '\r')).drop 1 := by
  induction text with
  | nil => exact absurd member List.not_mem_nil
  | cons c text ih =>
    by_cases here : c = '\r'
    · subst here
      rfl
    · have later := (List.mem_cons.mp member).resolve_left (Ne.symm here)
      rw [List.dropWhile_cons_of_pos (by simpa using here)]
      exact ih later

private theorem plain_reads : Reads plainEditor id endsAtReturn typesAsIs where
  reset _ := rfl
  setPrompt _ _ := rfl
  writeResponse _ _ := rfl
  feed _ _ := rfl
  polled state line polled := by
    unfold plainEditor at polled ⊢
    dsimp only [id] at polled ⊢
    split at polled
    · rename_i member
      cases polled
      rw [if_pos member]
      have none : '\r' ∉ state.takeWhile (· ≠ '\r') := fun within => by
        simpa using List.mem_takeWhile_imp within
      refine ⟨_, ?_, cut_returned _ none, rfl⟩
      calc state
        _ = state.takeWhile (· ≠ '\r') ++ state.dropWhile (· ≠ '\r') :=
          List.takeWhile_append_dropWhile.symm
        _ = state.takeWhile (· ≠ '\r') ++ ('\r' :: (state.dropWhile (· ≠ '\r')).drop 1) := by
          rw [← dropWhile_unreturned state member]
        _ = _ := List.append_cons _ _ _
    · contradiction
  unpolled state polled := by
    unfold plainEditor at polled ⊢
    dsimp only [id] at polled ⊢
    split at polled
    · contradiction
    · rename_i absent
      rw [if_neg absent]
  writeAsyncOutput _ _ := rfl
  refreshLine _ := rfl

/-- Over any run, as long as the bytes that come after a gap come where no line is
unfinished: the very bytes each submitted line was made of are one contiguous piece of
what its origin sent. -/
theorem no_spliced_command {config : Config E} (reads : Reads config.editor fed ends types)
    (editor : E) {wire : Wire E}
    (ran : run (Wire.step fed config) (Wire.start editor) events = some wire)
    (separate : Along (Wire.step fed config) (Separate fed ends) (Wire.start editor) events) :
    List.Forall₂ (fun command marks => Whole types wire.sent command.origin command.line marks)
      wire.responder.submitted wire.madeOf :=
  (run_invariant_along (unspliced_step reads) (unspliced_start editor) separate ran).typed

/-- A message is lost to the lock where the line before it is whole. -/
def betweenLines : List Event :=
  [.terminalIn .tcp Responder.peer 1 ['a', '\r'] true,
    .terminalIn .tcp Responder.peer 2 ['x'] false,
    .terminalIn .tcp Responder.peer 3 ['b', '\r'] true, .pumpTake firstSlot 4, .pumpBegin true,
    .pumpPoll true, .pumpPoll true, .commandResult [] 0, .pumpPoll true, .pumpTake firstSlot 5,
    .pumpBegin true]

theorem no_spliced_command_between : ∃ wire,
    run (Wire.step id Responder.plain) (Wire.start []) betweenLines = some wire ∧
    wire.responder.submitted = [⟨Responder.peer, 0, ['a']⟩, ⟨Responder.peer, 0, ['b']⟩] ∧
    wire.madeOf = [[('a', 0), ('\r', 1)], [('b', 3), ('\r', 4)]] ∧
    List.Forall₂ (fun command marks =>
      Whole typesAsIs wire.sent command.origin command.line marks)
      wire.responder.submitted wire.madeOf := by
  have separate : Along (Wire.step id Responder.plain) (Separate id endsAtReturn) (Wire.start [])
      betweenLines := by
    refine along_of_step (fun _ none => absurd none Bool.false_ne_true) rfl ?_
    refine along_of_step (fun taken => absurd rfl taken) rfl ?_
    refine along_of_step ?_ rfl ?_
    · rintro - - i found
      cases (show some (0 : Fin 3) = some i from found)
      rfl
    · iterate 8 refine along_of_step trivial rfl ?_
      trivial
  exact ⟨_, rfl, rfl, rfl, no_spliced_command plain_reads [] rfl separate⟩

/-- A message is lost to the lock in the middle of a line. -/
def withinLine : List Event :=
  [.terminalIn .tcp Responder.peer 1 ['a', 'b'] true,
    .terminalIn .tcp Responder.peer 2 ['c', 'd'] false,
    .terminalIn .tcp Responder.peer 3 ['e', 'f', '\r'] true, .pumpTake firstSlot 4,
    .pumpBegin true, .pumpPoll true]

/-- "abcdef" was typed, and "abef" is submitted. -/
theorem spliced_command : ¬ ∀ (events : List Event) (wire : Wire Text),
    run (Wire.step id Responder.plain) (Wire.start []) events = some wire →
      List.Forall₂ (fun command marks =>
        Whole typesAsIs wire.sent command.origin command.line marks)
        wire.responder.submitted wire.madeOf := by
  intro every
  obtain ⟨wire, ran, submitted, madeOf, sent⟩ : ∃ wire,
      run (Wire.step id Responder.plain) (Wire.start []) withinLine = some wire ∧
        wire.responder.submitted = [⟨Responder.peer, 0, ['a', 'b', 'e', 'f']⟩] ∧
        wire.madeOf = [[('a', 0), ('b', 1), ('e', 4), ('f', 5), ('\r', 6)]] ∧
        wire.sent Responder.peer = ['a', 'b', 'c', 'd', 'e', 'f', '\r'] :=
    ⟨_, rfl, rfl, rfl, rfl⟩
  have whole := every withinLine wire ran
  rw [submitted, madeOf, List.forall₂_cons] at whole
  obtain ⟨-, within⟩ := whole.1
  dsimp only at within
  rw [sent] at within
  exact absurd within (by decide)

end BallyOS.Terminal
