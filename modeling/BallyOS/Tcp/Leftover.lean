import BallyOS.Tcp.BusyResponder

/-! What a pending connection leaves to the next. Nobody resets the decoder between two of
them, so the bytes that one leaves without a delimiter stand before the first block of the
next, and the next is answered as alone only where they do not change the answer to it. -/
namespace BallyOS.Tcp

namespace BusyLibrary
variable {D Hello Frame : Type} (library : BusyLibrary D Hello Frame)

/-- The decoder gathers bytes up to a delimiter, and makes a frame of them there or none. -/
structure Gathers (decode : List UInt8 → Option Frame) (gathered : List UInt8 → D → Prop) :
    Prop where
  fresh : gathered [] library.fresh
  byte : ∀ bytes decoder byte, gathered bytes decoder → byte ≠ 0 →
    gathered (bytes ++ [byte]) (library.push decoder byte).1 ∧
      (library.push decoder byte).2 = none
  delimiter : ∀ bytes decoder, gathered bytes decoder →
    gathered [] (library.push decoder 0).1 ∧ (library.push decoder 0).2 = decode bytes

/-- The library with the bytes gathered in place of the decoder. -/
def gathering (decode : List UInt8 → Option Frame) : BusyLibrary (List UInt8) Hello Frame where
  fresh := []
  push bytes byte := if byte = 0 then ([], decode bytes) else (bytes ++ [byte], none)
  helloResult := library.helloResult
  encode := library.encode
  cobsEncode := library.cobsEncode
  kBusy := library.kBusy
  kCapacityExhausted := library.kCapacityExhausted
  kHelloResult := library.kHelloResult

/-- What the bytes before a delimiter are answered with. -/
def blockReply (decode : List UInt8 → Option Frame) (identity : Identity Hello)
    (nowMs : UInt64) (bytes : List UInt8) : Option (List UInt8) :=
  (decode bytes).bind (library.busyReply identity nowMs)

end BusyLibrary

/-- The first block of a connection, and when its delimiter came. -/
def firstBlock : List Receive → Option (List UInt8 × UInt64)
  | [] => none
  | receive :: rest =>
    if 0 ∈ receive.data then some (receive.data.takeWhile (· ≠ 0), receive.nowMs)
    else (firstBlock rest).map fun block => (receive.data ++ block.1, block.2)

namespace BusyLibrary
variable {D Hello Frame : Type} (library : BusyLibrary D Hello Frame)

/-- The first block of the connection is answered the same after either leftover. -/
def SameReply (decode : List UInt8 → Option Frame) (identity : Identity Hello)
    (left other : List UInt8) (connection : List Receive) : Prop :=
  ∀ block nowMs, firstBlock connection = some (block, nowMs) →
    library.blockReply decode identity nowMs (left ++ block) =
      library.blockReply decode identity nowMs (other ++ block)

/-- What each connection leaves does not change the answer to the first block of the next. -/
def Undisturbed (decode : List UInt8 → Option Frame) (identity : Identity Hello) :
    List UInt8 → List (List Receive) → Prop
  | _, [] => True
  | left, connection :: rest =>
    library.SameReply decode identity left [] connection ∧
      Undisturbed decode identity
        ((library.gathering decode).serve identity left connection).1 rest

/-! ### Steps -/

private theorem serve_answered (identity : Identity Hello) {decoder after : D} {receive : Receive}
    {unread reply : List UInt8} (rest : List Receive)
    (fed : library.feed identity receive.nowMs decoder receive.data =
      (after, unread, some reply)) :
    library.serve identity decoder (receive :: rest) =
      (after, some ⟨rest.length, unread, reply⟩) := by
  rw [serve, fed]

private theorem serve_unanswered (identity : Identity Hello) {decoder after : D} {receive : Receive}
    {unread : List UInt8} (rest : List Receive)
    (fed : library.feed identity receive.nowMs decoder receive.data = (after, unread, none)) :
    library.serve identity decoder (receive :: rest) = library.serve identity after rest := by
  rw [serve, fed]

private theorem feed_push_none (identity : Identity Hello) (nowMs : UInt64) {decoder : D}
    {byte : UInt8}
    (rest : List UInt8)
    (silent : (library.push decoder byte).2.bind (library.busyReply identity nowMs) = none) :
    library.feed identity nowMs decoder (byte :: rest) =
      library.feed identity nowMs (library.push decoder byte).1 rest := by
  rw [feed]
  simp only [silent]

private theorem feed_push_some (identity : Identity Hello) (nowMs : UInt64) {decoder : D}
    {byte : UInt8}
    {reply : List UInt8} (rest : List UInt8)
    (answers : (library.push decoder byte).2.bind (library.busyReply identity nowMs) =
      some reply) :
    library.feed identity nowMs decoder (byte :: rest) =
      ((library.push decoder byte).1, rest, some reply) := by
  rw [feed]
  simp only [answers]

/-- What is answered leaves fewer bytes than came. -/
theorem feed_unread (identity : Identity Hello) (nowMs : UInt64) {data : List UInt8}
    {decoder after : D} {unread reply : List UInt8}
    (fed : library.feed identity nowMs decoder data = (after, unread, some reply)) :
    unread.length < data.length := by
  induction data generalizing decoder with
  | nil => simp [feed] at fed
  | cons byte rest ih =>
    cases answers : (library.push decoder byte).2.bind (library.busyReply identity nowMs) with
    | none =>
      rw [library.feed_push_none identity nowMs rest answers] at fed
      have fewer := ih fed
      simp only [List.length_cons]
      omega
    | some sent =>
      rw [library.feed_push_some identity nowMs rest answers] at fed
      cases fed
      simp

private theorem serve_later (identity : Identity Hello) {connection : List Receive} {decoder : D}
    {answer : Answer}
    (served : (library.serve identity decoder connection).2 = some answer) :
    answer.later < connection.length := by
  induction connection generalizing decoder with
  | nil => simp [serve] at served
  | cons receive rest ih =>
    rcases fed : library.feed identity receive.nowMs decoder receive.data with
      ⟨next, unread, reply⟩
    cases reply with
    | none =>
      rw [library.serve_unanswered identity rest fed] at served
      have fewer := ih served
      simp only [List.length_cons]
      omega
    | some sent =>
      rw [library.serve_answered identity rest fed] at served
      cases served
      simp

/-- An answer that comes after the first bytes of a receive is another than one at them. -/
theorem serve_past (identity : Identity Hello) {decoder : D} {receive : Receive}
    {rest : List Receive} {answer : Answer}
    (served : (library.serve identity decoder (receive :: rest)).2 = some answer) :
    answer.later < rest.length ∨ answer.unread.length < receive.data.length := by
  rcases fed : library.feed identity receive.nowMs decoder receive.data with
    ⟨next, unread, reply⟩
  cases reply with
  | none =>
    rw [library.serve_unanswered identity rest fed] at served
    exact Or.inl (library.serve_later identity served)
  | some sent =>
    rw [library.serve_answered identity rest fed] at served
    cases served
    exact Or.inr (library.feed_unread identity receive.nowMs fed)

private theorem serveAll_cons (identity : Identity Hello) (decoder : D) (connection : List Receive)
    (rest : List (List Receive)) :
    library.serveAll identity decoder (connection :: rest) =
      (library.serve identity decoder connection).2 ::
        library.serveAll identity (library.serve identity decoder connection).1 rest := rfl

/-! ### The decoder and the bytes it gathered -/

private theorem gathering_gathers (decode : List UInt8 → Option Frame) :
    (library.gathering decode).Gathers decode fun bytes held => held = bytes where
  fresh := rfl
  byte := by
    rintro bytes _ byte rfl nonzero
    simp [gathering, nonzero]
  delimiter := by
    rintro bytes _ rfl
    exact ⟨rfl, rfl⟩

section Refinement
variable {library} {decode : List UInt8 → Option Frame} {gathered : List UInt8 → D → Prop}
variable (gathers : library.Gathers decode gathered) (identity : Identity Hello)
include gathers

private theorem push_gathering {bytes : List UInt8} {decoder : D} (holds : gathered bytes decoder)
    (byte : UInt8) :
    gathered ((library.gathering decode).push bytes byte).1 (library.push decoder byte).1 ∧
      (library.push decoder byte).2 = ((library.gathering decode).push bytes byte).2 := by
  by_cases zero : byte = 0
  · subst zero
    simpa [gathering] using gathers.delimiter bytes decoder holds
  · simpa [gathering, zero] using gathers.byte bytes decoder byte holds zero

private theorem feed_gathering (nowMs : UInt64) (data : List UInt8) {bytes : List UInt8}
    {decoder : D}
    (holds : gathered bytes decoder) :
    gathered ((library.gathering decode).feed identity nowMs bytes data).1
        (library.feed identity nowMs decoder data).1 ∧
      (library.feed identity nowMs decoder data).2 =
        ((library.gathering decode).feed identity nowMs bytes data).2 := by
  induction data generalizing bytes decoder with
  | nil => exact ⟨holds, rfl⟩
  | cons byte rest ih =>
    obtain ⟨kept, same⟩ := push_gathering gathers holds byte
    have replies : (library.gathering decode).busyReply identity nowMs =
      library.busyReply identity nowMs := rfl
    simp only [feed, same, replies]
    cases ((library.gathering decode).push bytes byte).2.bind
        (library.busyReply identity nowMs) with
    | none => exact ih kept
    | some reply => exact ⟨kept, rfl⟩

private theorem serve_gathering (connection : List Receive) {bytes : List UInt8} {decoder : D}
    (holds : gathered bytes decoder) :
    gathered ((library.gathering decode).serve identity bytes connection).1
        (library.serve identity decoder connection).1 ∧
      (library.serve identity decoder connection).2 =
        ((library.gathering decode).serve identity bytes connection).2 := by
  induction connection generalizing bytes decoder with
  | nil => exact ⟨holds, rfl⟩
  | cons receive rest ih =>
    obtain ⟨kept, same⟩ := feed_gathering gathers identity receive.nowMs receive.data holds
    rcases fed : library.feed identity receive.nowMs decoder receive.data with
      ⟨next, unread, reply⟩
    rcases gatheringFed : (library.gathering decode).feed identity receive.nowMs bytes
      receive.data with ⟨left, unread', reply'⟩
    rw [fed, gatheringFed] at kept same
    cases same
    cases reply with
    | none =>
      rw [serve_unanswered library identity rest fed,
        serve_unanswered (library.gathering decode) identity rest gatheringFed]
      exact ih kept
    | some sent =>
      rw [serve_answered library identity rest fed,
        serve_answered (library.gathering decode) identity rest gatheringFed]
      exact ⟨kept, rfl⟩

/-- The answers are those over the bytes gathered. -/
theorem serveAll_gathering (connections : List (List Receive)) {bytes : List UInt8}
    {decoder : D} (holds : gathered bytes decoder) :
    library.serveAll identity decoder connections =
      (library.gathering decode).serveAll identity bytes connections := by
  induction connections generalizing bytes decoder with
  | nil => rfl
  | cons connection rest ih =>
    obtain ⟨kept, same⟩ := serve_gathering gathers identity connection holds
    rw [serveAll_cons, serveAll_cons, same, ih kept]

end Refinement

/-! ### The first block -/

section Gathering
variable (decode : List UInt8 → Option Frame) (identity : Identity Hello)

/-- Bytes without a delimiter are gathered. -/
theorem feed_block (nowMs : UInt64) {block : List UInt8} (undelimited : 0 ∉ block)
    (left rest : List UInt8) :
    (library.gathering decode).feed identity nowMs left (block ++ rest) =
      (library.gathering decode).feed identity nowMs (left ++ block) rest := by
  induction block generalizing left with
  | nil => simp
  | cons byte block ih =>
    have nonzero : byte ≠ 0 := fun zero => undelimited (zero ▸ List.mem_cons_self)
    have pushed : (library.gathering decode).push left byte = (left ++ [byte], none) := by
      simp [gathering, nonzero]
    rw [List.cons_append, feed_push_none _ _ _ _ (by rw [pushed]; rfl), pushed,
      ih (fun member => undelimited (List.mem_cons_of_mem _ member))]
    simp

private theorem feed_undelimited (nowMs : UInt64) {data : List UInt8} (undelimited : 0 ∉ data)
    (left : List UInt8) :
    (library.gathering decode).feed identity nowMs left data = (left ++ data, [], none) := by
  have fed := library.feed_block decode identity nowMs undelimited left []
  rwa [List.append_nil, feed] at fed

/-- A receive with a delimiter is answered at it, or goes on past it with nothing gathered. -/
theorem serve_block {left block tail : List UInt8} {receive : Receive} (rest : List Receive)
    (data : receive.data = block ++ 0 :: tail) (undelimited : 0 ∉ block) :
    (library.gathering decode).serve identity left (receive :: rest) =
      match library.blockReply decode identity receive.nowMs (left ++ block) with
      | some reply => ([], some ⟨rest.length, tail, reply⟩)
      | none => (library.gathering decode).serve identity [] (⟨tail, receive.nowMs⟩ :: rest) := by
  have pushed : (library.gathering decode).push (left ++ block) 0 =
    ([], decode (left ++ block)) := rfl
  have fed := library.feed_block decode identity receive.nowMs undelimited left (0 :: tail)
  rw [← data] at fed
  cases answers : library.blockReply decode identity receive.nowMs (left ++ block) with
  | none =>
    rw [feed_push_none _ _ _ _ (by rw [pushed]; exact answers), pushed] at fed
    rw [serve, serve, fed]
  | some reply =>
    rw [feed_push_some _ _ _ _ (by rw [pushed]; exact answers), pushed] at fed
    exact serve_answered _ identity rest fed

private theorem split_block {data : List UInt8} (delimited : 0 ∈ data) :
    ∃ tail, data = data.takeWhile (· ≠ 0) ++ 0 :: tail ∧ 0 ∉ data.takeWhile (· ≠ 0) := by
  induction data with
  | nil => cases delimited
  | cons byte rest ih =>
    by_cases zero : byte = 0
    · exact ⟨rest, by simp [zero], by simp [zero]⟩
    · obtain ⟨tail, split, undelimited⟩ :=
        ih ((List.mem_cons.mp delimited).resolve_left (Ne.symm zero))
      refine ⟨tail, ?_, ?_⟩
      · rw [List.takeWhile_cons_of_pos (by simpa using zero), List.cons_append, ← split]
      · rw [List.takeWhile_cons_of_pos (by simpa using zero)]
        exact fun member => (List.mem_cons.mp member).elim (fun same => zero same.symm) undelimited

/-- An answer at a delimiter is none that comes past it. -/
theorem past_ne (left : List UInt8) (rest : List Receive) (tail reply : List UInt8)
    (nowMs : UInt64) :
    ((library.gathering decode).serve identity left (⟨tail, nowMs⟩ :: rest)).2 ≠
      some ⟨rest.length, tail, reply⟩ := by
  intro same
  have past := serve_past _ identity same
  simp at past

private theorem sameReply_iff {left other block : List UInt8} {nowMs : UInt64}
    {connection : List Receive} (first : firstBlock connection = some (block, nowMs)) :
    library.SameReply decode identity left other connection ↔
      library.blockReply decode identity nowMs (left ++ block) =
        library.blockReply decode identity nowMs (other ++ block) := by
  constructor
  · exact fun same => same block nowMs first
  · intro same block' nowMs' found
    obtain ⟨rfl, rfl⟩ := Prod.mk.inj (Option.some.inj (first.symm.trans found))
    exact same

/-- A connection is answered the same after two leftovers exactly where its first block is. -/
theorem same_answer_iff (left other : List UInt8) (connection : List Receive) :
    ((library.gathering decode).serve identity left connection).2 =
        ((library.gathering decode).serve identity other connection).2 ↔
      library.SameReply decode identity left other connection := by
  induction connection generalizing left other with
  | nil => simp [serve, SameReply, firstBlock]
  | cons receive rest ih =>
    by_cases delimited : 0 ∈ receive.data
    · obtain ⟨tail, data, undelimited⟩ := split_block delimited
      have first : firstBlock (receive :: rest) =
          some (receive.data.takeWhile (· ≠ 0), receive.nowMs) := by
        rw [firstBlock, if_pos delimited]
      rw [library.serve_block decode identity rest data undelimited,
        library.serve_block decode identity rest data undelimited,
        library.sameReply_iff decode identity first]
      generalize library.blockReply decode identity receive.nowMs (left ++ _) = one
      generalize library.blockReply decode identity receive.nowMs (other ++ _) = two
      cases one with
      | none =>
        cases two with
        | none => simp
        | some reply =>
          simpa using library.past_ne decode identity [] rest tail reply receive.nowMs
      | some sent =>
        cases two with
        | none =>
          simpa using (library.past_ne decode identity [] rest tail sent receive.nowMs).symm
        | some reply => simp
    · have onward : ∀ left, (library.gathering decode).serve identity left (receive :: rest) =
          (library.gathering decode).serve identity (left ++ receive.data) rest := fun left =>
        serve_unanswered _ identity rest
          (library.feed_undelimited decode identity receive.nowMs delimited left)
      rw [onward, onward, ih, SameReply, SameReply, firstBlock, if_neg delimited]
      simp only [Option.map_eq_some_iff, Prod.exists, Prod.mk.injEq, List.append_assoc]
      constructor
      · rintro same _ _ ⟨block, nowMs, found, rfl, rfl⟩
        exact same block nowMs found
      · exact fun same block nowMs found => same _ nowMs ⟨block, nowMs, found, rfl, rfl⟩

private theorem serveAll_alone_iff (left : List UInt8) (connections : List (List Receive)) :
    (library.gathering decode).serveAll identity left connections =
        connections.map (fun connection =>
          ((library.gathering decode).serve identity [] connection).2) ↔
      library.Undisturbed decode identity left connections := by
  induction connections generalizing left with
  | nil => simp [serveAll, Undisturbed]
  | cons connection rest ih =>
    rw [serveAll_cons, List.map_cons, List.cons.injEq, library.same_answer_iff decode identity, ih,
      Undisturbed]

/-- What is answered is a block, so that nothing stays gathered. -/
theorem feed_answered (nowMs : UInt64) {data left after unread reply : List UInt8}
    (fed : (library.gathering decode).feed identity nowMs left data =
      (after, unread, some reply)) :
    after = [] := by
  induction data generalizing left with
  | nil => simp [feed] at fed
  | cons byte rest ih =>
    cases answers : ((library.gathering decode).push left byte).2.bind
        ((library.gathering decode).busyReply identity nowMs) with
    | none =>
      rw [feed_push_none _ identity nowMs rest answers] at fed
      exact ih fed
    | some sent =>
      rw [feed_push_some _ identity nowMs rest answers] at fed
      by_cases zero : byte = 0
      · subst zero
        cases fed
        rfl
      · simp [gathering, zero] at answers

/-- A connection that is answered leaves nothing to the next. -/
theorem serve_answered_empty {left after : List UInt8} {connection : List Receive}
    {answer : Answer}
    (served : (library.gathering decode).serve identity left connection = (after, some answer)) :
    after = [] := by
  induction connection generalizing left with
  | nil => simp [serve] at served
  | cons receive rest ih =>
    rcases fed : (library.gathering decode).feed identity receive.nowMs left receive.data with
      ⟨next, unread, reply⟩
    cases reply with
    | none =>
      rw [serve_unanswered _ identity rest fed] at served
      exact ih served
    | some sent =>
      rw [serve_answered _ identity rest fed] at served
      cases served
      exact library.feed_answered decode identity receive.nowMs fed

end Gathering

/-- Every pending connection is answered as it would be alone exactly where what the one
before it left does not change the answer to its first block. -/
theorem answered_alone_iff {decode : List UInt8 → Option Frame}
    {gathered : List UInt8 → D → Prop} (gathers : library.Gathers decode gathered)
    (identity : Identity Hello) (connections : List (List Receive)) :
    library.serveAll identity library.fresh connections =
        connections.map (fun connection =>
          (library.serve identity library.fresh connection).2) ↔
      library.Undisturbed decode identity [] connections := by
  have alone : (fun connection => (library.serve identity library.fresh connection).2) =
      fun connection => ((library.gathering decode).serve identity [] connection).2 :=
    funext fun connection => (serve_gathering gathers identity connection gathers.fresh).2
  rw [serveAll_gathering gathers identity connections gathers.fresh, alone]
  exact library.serveAll_alone_iff decode identity [] connections

/-- Where every connection is answered, each is answered as it would be alone. -/
theorem undisturbed_of_answered (decode : List UInt8 → Option Frame) (identity : Identity Hello)
    (connections : List (List Receive))
    (answered : none ∉ (library.gathering decode).serveAll identity [] connections) :
    library.Undisturbed decode identity [] connections := by
  induction connections with
  | nil => trivial
  | cons connection rest ih =>
    rw [serveAll_cons, List.mem_cons, not_or] at answered
    obtain ⟨first, later⟩ := answered
    obtain ⟨answer, served⟩ := Option.ne_none_iff_exists'.mp (Ne.symm first)
    have nothing : ((library.gathering decode).serve identity [] connection).1 = [] :=
      library.serve_answered_empty decode identity (Prod.ext rfl served)
    rw [nothing] at later
    refine ⟨fun _ _ _ => rfl, ?_⟩
    rw [nothing]
    exact ih later

end BusyLibrary

/-! A client is cut off before the last delimiter of its HELLO. The first byte of the next
client ends that block, and brings it the answer to a request it never made. -/

private def twoBytes : List UInt8 → Option (UInt8 × UInt8)
  | [3, first, second] => some (first, second)
  | _ => none

/-- A library with frames of two bytes, all of them HELLOs that the reply repeats. -/
private def twoByteFrames : BusyLibrary (List UInt8) Unit (UInt8 × UInt8) :=
  BusyLibrary.gathering
    { fresh := ()
      push := fun decoder _ => (decoder, none)
      helloResult := fun _ frame _ => some (frame.1 :: frame.2 :: List.replicate 50 1)
      encode := fun _ _ payload => some payload
      cobsEncode := fun bytes => some ((bytes.splitOn 0).flatMap fun block =>
        UInt8.ofNat (block.length + 1) :: block)
      kBusy := 3
      kCapacityExhausted := 7
      kHelloResult := 2 }
    twoBytes

private def shown : Identity Unit := ⟨(), 1, 1⟩

private def cutOff : List Receive := [⟨[0, 3, 1, 2], 1000⟩]

private def wellFormed : List Receive := [⟨[0, 3, 4, 5, 0], 2000⟩]

theorem BusyLibrary.answered_alone_twice :
    twoByteFrames.serveAll shown twoByteFrames.fresh [wellFormed, wellFormed] =
      [wellFormed, wellFormed].map fun connection =>
        (twoByteFrames.serve shown twoByteFrames.fresh connection).2 :=
  (twoByteFrames.answered_alone_iff (BusyLibrary.gathering_gathers _ twoBytes) shown _).mpr
    (twoByteFrames.undisturbed_of_answered twoBytes shown _ (by decide))

theorem BusyLibrary.cut_off_hello_answers_next :
    twoByteFrames.Gathers twoBytes (fun bytes held => held = bytes) ∧
      twoByteFrames.serveAll shown twoByteFrames.fresh [cutOff, wellFormed] ≠
        [cutOff, wellFormed].map fun connection =>
          (twoByteFrames.serve shown twoByteFrames.fresh connection).2 :=
  ⟨BusyLibrary.gathering_gathers _ twoBytes, by decide⟩

end BallyOS.Tcp
