import BallyOS.KeyStore.Sha256

/-! The key store's hash is the standard's, for any updates, and its HMAC with it. -/
namespace BallyOS.KeyStore
open Library Fips180

private theorem kShaRoundConstants_eq : kShaRoundConstants = roundConstants := by
  decide +kernel

private theorem initialState_eq : ({} : Sha256).state = initialHash := by
  decide +kernel

private theorem or_byte (high : Nat) (byte : UInt8) :
    high <<< 8 ||| byte.toNat = high * 2 ^ 8 + byte.toNat := by
  rw [← Nat.shiftLeft_add_eq_or_of_lt byte.toNat_lt, Nat.shiftLeft_eq]

private theorem toNat_shifted (byte : UInt8) {places : UInt32} (fits : places.toNat ≤ 24) :
    (byte.toUInt32 <<< places).toNat = byte.toNat <<< places.toNat := by
  have small : byte.toNat <<< places.toNat < 2 ^ 32 := by
    rw [Nat.shiftLeft_eq]
    calc byte.toNat * 2 ^ places.toNat < 2 ^ 8 * 2 ^ places.toNat :=
          Nat.mul_lt_mul_of_pos_right byte.toNat_lt (Nat.two_pow_pos _)
      _ = 2 ^ (8 + places.toNat) := (Nat.pow_add 2 8 _).symm
      _ ≤ 2 ^ 32 := Nat.pow_le_pow_right (by decide) (by omega)
  rw [UInt32.toNat_shiftLeft, UInt8.toNat_toUInt32, Nat.mod_eq_of_lt (by omega : places.toNat < 32),
    Nat.mod_eq_of_lt small]

theorem word_of_bytes (b0 b1 b2 b3 : UInt8) :
    b0.toUInt32 <<< 24 ||| b1.toUInt32 <<< 16 ||| b2.toUInt32 <<< 8 ||| b3.toUInt32 =
      UInt32.ofNat (ofBits (bitsOf [b0, b1, b2, b3])) := by
  have read : ofBits (bitsOf [b0, b1, b2, b3]) =
      ((b0.toNat <<< 8 ||| b1.toNat) <<< 8 ||| b2.toNat) <<< 8 ||| b3.toNat := by
    rw [or_byte, or_byte, or_byte, ofBits_bitsOf_four]
  have spread : ((b0.toNat <<< 8 ||| b1.toNat) <<< 8 ||| b2.toNat) <<< 8 ||| b3.toNat =
      b0.toNat <<< 24 ||| b1.toNat <<< 16 ||| b2.toNat <<< 8 ||| b3.toNat := by
    simp only [Nat.shiftLeft_or_distrib, ← Nat.shiftLeft_add]
  have placed : (b0.toUInt32 <<< 24 ||| b1.toUInt32 <<< 16 ||| b2.toUInt32 <<< 8 |||
      b3.toUInt32).toNat = ofBits (bitsOf [b0, b1, b2, b3]) := by
    rw [read, spread, UInt32.toNat_or, UInt32.toNat_or, UInt32.toNat_or,
      toNat_shifted b0 (by decide), toNat_shifted b1 (by decide), toNat_shifted b2 (by decide),
      UInt8.toNat_toUInt32]
    rfl
  rw [← placed, UInt32.ofNat_toNat]

private theorem getElem!_toList (block : Vector UInt8 kShaBlockSize)
    (within : i < block.toList.length) : block.toList[i] = block[i]! := by
  rw [Vector.length_toList] at within
  rw [getElem!_pos block i within, Vector.getElem_toList]

private theorem loadWord_eq (block : Vector UInt8 kShaBlockSize) (within : i < 16) :
    loadWord block i = wordAt (bitsOf block.toList) i := by
  have sized : block.toList.length = 64 := Vector.length_toList
  have four : (block.toList.drop (i * 4)).take 4 =
      [block[i * 4]!, block[i * 4 + 1]!, block[i * 4 + 2]!, block[i * 4 + 3]!] := by
    rw [List.drop_eq_getElem_cons (by omega), List.drop_eq_getElem_cons (by omega),
      List.drop_eq_getElem_cons (by omega), List.drop_eq_getElem_cons (by omega)]
    simp only [List.take_succ_cons, List.take_zero, getElem!_toList]
  have bits : 32 * i = 8 * (i * 4) := by omega
  unfold loadWord wordAt
  rw [word_of_bytes, ← four, ← bitsOf_take, ← bitsOf_drop, bits]

private theorem add_reverse (s t u v : UInt32) : s + t + u + v = v + u + t + s := by
  ac_rfl

private theorem scheduleWord_eq {block : List Bool} {w : Vector UInt32 64} (late : ¬i < 16)
    (known : ∀ j, j < i → w[j]! = schedule block j) : scheduleWord w i = schedule block i := by
  unfold scheduleWord
  rw [schedule_ge block late, known (i - 15) (by omega), known (i - 2) (by omega),
    known (i - 16) (by omega), known (i - 7) (by omega)]
  exact add_reverse _ _ _ _

/-- A loop that sets each item to what it should be, given the items before it. -/
private theorem filled_range' {Item : Type} [Inhabited Item] {size : Nat}
    {value : Vector Item size → Nat → Item} {target : Nat → Item} {first : Nat}
    {w : Vector Item size} (before : ∀ j, j < first → w[j]! = target j) :
    ∀ count, first + count ≤ size →
      (∀ v i, first ≤ i → i < first + count → (∀ j, j < i → v[j]! = target j) →
        value v i = target i) →
      ∀ j, j < first + count →
        ((List.range' first count).foldl (fun v i => v.set! i (value v i)) w)[j]! = target j := by
  intro count
  induction count with
  | zero => exact fun _ _ => before
  | succ count ih =>
    intro fits sets j within
    have known := ih (by omega) fun v i low high => sets v i low (by omega)
    rw [List.range'_concat, Nat.one_mul, List.foldl_append, List.foldl_cons, List.foldl_nil,
      getElem!_pos _ j (by omega), Vector.getElem_set!]
    split
    · rename_i here
      subst here
      exact sets _ _ (by omega) (by omega) known
    · rw [← getElem!_pos _ j (by omega)]
      exact known j (by omega)

private theorem messageSchedule_eq (block : Vector UInt8 kShaBlockSize) (within : i < 64) :
    (messageSchedule block)[i]! = schedule (bitsOf block.toList) i := by
  unfold messageSchedule
  rw [List.range_eq_range']
  refine filled_range' (filled_range' (fun j none => absurd none (Nat.not_lt_zero j)) 16
    (by decide) ?_) 48 (by decide) ?_ i within
  · intro w j _ early _
    rw [loadWord_eq block (by omega), schedule_lt _ (by omega)]
  · exact fun w j late _ known => scheduleWord_eq (by omega) known

private theorem sha256Compress_eq (state : Words) (block : Vector UInt8 kShaBlockSize) :
    sha256Compress state block = compress state (bitsOf block.toList) := by
  have rounds : (List.range 64).foldl (fun v i =>
        shaRound (kShaRoundConstants.getD i 0) (messageSchedule block)[i]! v) state =
      (List.range 64).foldl (fun v t =>
        round (roundConstants.getD t 0) (schedule (bitsOf block.toList) t) v) state := by
    refine List.foldl_ext _ _ state fun v i member => ?_
    rw [kShaRoundConstants_eq, messageSchedule_eq block (List.mem_range.mp member)]
    rfl
  unfold sha256Compress compress Words.add
  dsimp only
  rw [rounds]
  simp only [UInt32.add_comm]

namespace Sha256

/-- The hash and the bytes of the block that is not full. -/
def filling (sha : Sha256) : Filling Words UInt8 :=
  ⟨sha.state, sha.block.toList.take sha.pending⟩

def fold (state : Words) (block : List UInt8) : Words := compress state (bitsOf block)

private theorem take_set {bytes : List UInt8} (within : i < bytes.length) (byte : UInt8) :
    (bytes.set i byte).take (i + 1) = bytes.take i ++ [byte] := by
  rw [List.take_succ_eq_append_getElem (by rwa [List.length_set]),
    List.take_set_of_le (Nat.le_refl i), List.getElem_set_self]

private theorem filling_push (sha : Sha256) (byte : UInt8) :
    (sha.push byte).filling = sha.filling.push kShaBlockSize fold byte := by
  have taken : (sha.block.set sha.pending byte sha.within).toList.take (sha.pending + 1) =
      sha.block.toList.take sha.pending ++ [byte] := by
    rw [Vector.toList_set]
    exact take_set (by rw [Vector.length_toList]; exact sha.within) byte
  have length : (sha.filling.pending ++ [byte]).length = sha.pending + 1 := by
    rw [filling, ← taken, List.length_take, Vector.length_toList]
    exact Nat.min_eq_left sha.within
  unfold push Filling.push
  dsimp only
  rw [length]
  split
  · rename_i full
    have whole : (sha.block.set sha.pending byte sha.within).toList =
        sha.filling.pending ++ [byte] := by
      rw [filling, ← taken, List.take_of_length_le]
      rw [Vector.length_toList, full]
    rw [← whole]
    unfold filling fold
    rw [sha256Compress_eq]
    rfl
  · unfold filling
    rw [taken]

private theorem filling_update (sha : Sha256) (data : List UInt8) :
    (sha.update data).filling = data.foldl (Filling.push kShaBlockSize fold) sha.filling := by
  unfold update
  have pushed : ∀ start : Sha256, (data.foldl push start).filling =
      data.foldl (Filling.push kShaBlockSize fold) start.filling := by
    induction data with
    | nil => exact fun _ => rfl
    | cons byte rest ih =>
      intro start
      rw [List.foldl_cons, List.foldl_cons, ih, filling_push]
  exact pushed _

private theorem total_update (sha : Sha256) (data : List UInt8) :
    (sha.update data).total = sha.total + UInt64.ofNat data.length := by
  have pushed : ∀ start : Sha256, (data.foldl push start).total = start.total := by
    induction data with
    | nil => exact fun _ => rfl
    | cons byte rest ih =>
      intro start
      rw [List.foldl_cons, ih]
      unfold push
      split <;> rfl
  exact pushed _

private theorem update_pending (sha : Sha256) (data : List UInt8) :
    (sha.update data).pending = (sha.pending + data.length) % kShaBlockSize := by
  have pushed : ∀ start : Sha256, (data.foldl push start).pending =
      (start.pending + data.length) % kShaBlockSize := by
    induction data with
    | nil => exact fun start => (Nat.mod_eq_of_lt start.within).symm
    | cons byte rest ih =>
      intro start
      rw [List.foldl_cons, ih, push_pending, Nat.mod_add_mod, List.length_cons, Nat.add_assoc,
        Nat.add_comm 1]
  exact pushed _

/-- The zeros are the fewest that reach the length field. -/
theorem fillZeros_spec (sha : Sha256) :
    sha.fillZeros.pending = kShaBlockSize - 8 ∧
      sha.fillZeros.filling = (List.replicate ((120 - sha.pending) % 64) 0).foldl
        (Filling.push kShaBlockSize fold) sha.filling := by
  have within := sha.within
  unfold fillZeros
  split
  · rename_i reached
    rw [reached]
    exact ⟨rfl, rfl⟩
  · rename_i before
    obtain ⟨reached, filled⟩ := fillZeros_spec (sha.update [0])
    have pending : (sha.update [0]).pending = (sha.pending + 1) % 64 := update_pending sha [0]
    have zeros : (120 - sha.pending) % 64 = (120 - (sha.pending + 1) % 64) % 64 + 1 := by
      unfold kShaBlockSize at within before
      omega
    refine ⟨reached, ?_⟩
    rw [filled, pending, filling_update, zeros, List.replicate_succ]
    rfl
termination_by (kShaBlockSize - 8 + kShaBlockSize - sha.pending) % kShaBlockSize
decreasing_by
  rw [update_pending]
  unfold kShaBlockSize at *
  simp only [List.length_singleton]
  omega

private theorem take_stored (block : Vector UInt8 kShaBlockSize) (value : Nat → UInt8)
    (first : Nat) : ∀ count, first + count ≤ kShaBlockSize →
      ((List.range count).foldl (fun block i => block.set! (first + i) (value i)) block).toList.take
        (first + count) = block.toList.take first ++ (List.range count).map value := by
  intro count
  induction count with
  | zero => simp
  | succ count ih =>
    intro fits
    have before := ih (by omega)
    rw [List.range_succ, List.foldl_append, List.foldl_cons, List.foldl_nil, Vector.toList_set!,
      ← Nat.add_assoc, take_set (by rw [Vector.length_toList]; omega), before, List.map_append,
      List.append_assoc]
    rfl

private theorem byte_shifted (value places : UInt64) : (value >>> places).toUInt8 =
    UInt8.ofNat (value.toNat / 2 ^ (places.toNat % 64)) := by
  rw [← UInt8.toNat_inj, UInt64.toNat_toUInt8, UInt64.toNat_shiftRight,
    Nat.shiftRight_eq_div_pow, UInt8.toNat_ofNat']

private theorem putLength_toList (bits : UInt64) (block : Vector UInt8 kShaBlockSize) :
    (putLength bits block).toList =
      block.toList.take (kShaBlockSize - 8) ++ bigEndian 8 bits.toNat := by
  have places : ∀ i, i < 8 → (56 - 8 * UInt64.ofNat i).toNat % 64 = 8 * (8 - 1 - i) := by decide
  have stored := take_stored block (fun i => (bits >>> (56 - 8 * UInt64.ofNat i)).toUInt8)
    (kShaBlockSize - 8) 8 (by decide)
  rw [List.take_of_length_le (by rw [Vector.length_toList]; decide)] at stored
  have bytes : (List.range 8).map (fun i => (bits >>> (56 - 8 * UInt64.ofNat i)).toUInt8) =
      bigEndian 8 bits.toNat := by
    rw [bigEndian_eq_map]
    refine List.map_congr_left fun i member => ?_
    rw [byte_shifted, places i (List.mem_range.mp member)]
  rw [← bytes]
  exact stored

private theorem storeWord_eq (word : UInt32) : storeWord word = bigEndian 4 word.toNat := by
  have byte (places : UInt32) : (word >>> places).toUInt8 =
      UInt8.ofNat (word.toNat / 2 ^ (places.toNat % 32)) := by
    apply UInt8.toNat_inj.mp
    rw [UInt32.toNat_toUInt8, UInt32.toNat_shiftRight, Nat.shiftRight_eq_div_pow]
    exact UInt8.toNat_ofNat'.symm
  have last : word.toUInt8 = UInt8.ofNat (word.toNat / 2 ^ 0) := by
    apply UInt8.toNat_inj.mp
    rw [UInt32.toNat_toUInt8, Nat.pow_zero, Nat.div_one]
    exact UInt8.toNat_ofNat'.symm
  rw [bigEndian_eq_map, storeWord, byte, byte, byte, last]
  rfl

/-- What has taken the bytes of a message, however they were split. -/
structure Took (message : List UInt8) (sha : Sha256) : Prop where
  filling : sha.filling = message.foldl (Filling.push kShaBlockSize fold) { state := initialHash }
  total : sha.total = UInt64.ofNat message.length
  pending : sha.pending = message.length % kShaBlockSize

private theorem took_nil : Took [] {} where
  filling := congrArg (Filling.mk · []) initialState_eq
  total := rfl
  pending := rfl

private theorem took_update {sha : Sha256} (took : Took message sha) (data : List UInt8) :
    Took (message ++ data) (sha.update data) where
  filling := by rw [filling_update, took.filling, List.foldl_append]
  total := by rw [total_update, took.total, List.length_append, UInt64.ofNat_add]
  pending := by rw [update_pending, took.pending, Nat.mod_add_mod, List.length_append]

private theorem took_updates {sha : Sha256} (took : Took message sha) (updates : List (List UInt8))
    :
    Took (message ++ updates.flatten) (updates.foldl update sha) := by
  induction updates generalizing message sha with
  | nil => simpa using took
  | cons data rest ih =>
    rw [List.flatten_cons, List.foldl_cons, ← List.append_assoc]
    exact ih (took_update took data)

/-- The bytes behind a message: a one, zeros, and the length in bits. -/
def padding (length : Nat) : List UInt8 :=
  0x80 :: List.replicate ((120 - (length + 1) % 64) % 64) 0 ++ bigEndian 8 (8 * length)

private theorem pad_bitsOf (message : List UInt8) :
    pad (bitsOf message) = bitsOf (message ++ padding message.length) := by
  have zeros : zeroBits (8 * message.length) =
      7 + 8 * ((120 - (message.length + 1) % 64) % 64) := by
    unfold zeroBits
    omega
  have one : toBits 8 (0x80 : UInt8).toNat = true :: List.replicate 7 false := by decide
  unfold pad padding
  rw [length_bitsOf, zeros, bitsOf_append, List.cons_append, bitsOf_cons, bitsOf_append,
    bitsOf_replicate_zero, bitsOf_bigEndian, one, List.replicate_add]
  simp only [List.append_assoc, List.cons_append]

private theorem padding_whole (message : List UInt8) :
    (message ++ padding message.length).length % kShaBlockSize = 0 := by
  have eight : (bigEndian 8 (8 * message.length)).length = 8 := rfl
  simp only [padding, List.length_append, List.length_cons, List.length_replicate, eight]
  unfold kShaBlockSize
  omega

private theorem fold_padded (message : List UInt8) :
    (blocks 512 (pad (bitsOf message))).foldl compress initialHash =
      ((message ++ padding message.length).foldl (Filling.push kShaBlockSize fold)
        { state := initialHash }).state := by
  have cut : blocks 512 (bitsOf (message ++ padding message.length)) = _ :=
    blocks_bitsOf kShaBlockSize (by decide) _
  rw [pad_bitsOf, cut, List.foldl_map, foldl_push_blocks (by decide) _ _ (padding_whole message)]
  rfl

private theorem bits_storeWord (v : Words) : v.bits =
    bitsOf ([v.a, v.b, v.c, v.d, v.e, v.f, v.g, v.h].flatMap storeWord) := by
  have word (w : UInt32) : bitsOf (storeWord w) = toBits 32 w.toNat := by
    rw [storeWord_eq]
    exact bitsOf_bigEndian 4 w.toNat
  simp only [Words.bits, List.flatMap_cons, List.flatMap_nil, bitsOf_append, word]
  rfl

private theorem length_field (took : Took message sha) :
    bigEndian 8 (sha.total * 8).toNat = bigEndian 8 (8 * message.length) := by
  have bits : (sha.total * 8).toNat = 8 * message.length % 2 ^ (8 * 8) := by
    rw [took.total, UInt64.toNat_mul, UInt64.toNat_ofNat', Nat.mod_mul_mod, Nat.mul_comm]
    rfl
  rw [bits, bigEndian_mod]

/-- The digest of what was taken. -/
theorem finish_eq {sha : Sha256} (took : Took message sha) : sha.finish = sha256 message := by
  obtain ⟨reached, filled⟩ := fillZeros_spec (sha.update [0x80])
  have opened := took_update took [0x80]
  have padded : (message ++ padding message.length).foldl (Filling.push kShaBlockSize fold)
        { state := initialHash } =
      (bigEndian 8 (8 * message.length)).foldl (Filling.push kShaBlockSize fold)
        (sha.update [0x80]).fillZeros.filling := by
    rw [filled, opened.filling, opened.pending, ← List.foldl_append, ← List.foldl_append]
    simp only [padding, List.length_append, List.length_singleton, List.append_assoc,
      List.cons_append, List.nil_append]
    rfl
  have short : (sha.update [0x80]).fillZeros.filling.pending.length +
      (bigEndian 8 (8 * message.length)).length = kShaBlockSize := by
    unfold filling
    rw [reached, List.length_take, Vector.length_toList]
    rfl
  have last : sha256Compress (sha.update [0x80]).fillZeros.state
        (putLength (sha.total * 8) (sha.update [0x80]).fillZeros.block) =
      (blocks 512 (pad (bitsOf message))).foldl compress initialHash := by
    rw [fold_padded, padded, foldl_push_block (by exact List.cons_ne_nil _ _) short,
      sha256Compress_eq, putLength_toList, length_field took, ← reached]
    rfl
  unfold finish sha256 digest
  dsimp only
  rw [last, bits_storeWord, octets_bitsOf]

theorem length_finish (sha : Sha256) : sha.finish.length = kShaDigestSize := rfl

private theorem finish_updates (updates : List (List UInt8)) :
    (updates.foldl update ({} : Sha256)).finish = sha256 updates.flatten :=
  finish_eq (took_updates took_nil updates)

end Sha256

open Sha256 in
theorem hmacSha256_eq (key message : List UInt8) :
    hmacSha256 key message = hmac sha256 kShaBlockSize key message := by
  have one (data : List UInt8) : (({} : Sha256).update data).finish = sha256 data := by
    simpa using finish_updates [data]
  have two (first second : List UInt8) :
      ((({} : Sha256).update first).update second).finish = sha256 (first ++ second) := by
    simpa using finish_updates [first, second]
  unfold hmacSha256 hmac
  dsimp only
  rw [two, two]
  by_cases long : kShaBlockSize < key.length
  · rw [if_pos long, if_pos long, one, ← one key, length_finish]
  · rw [if_neg long, if_neg long]

/-- The digest is the standard's however the message is split, and the code that
authenticates is the standard's for every key. -/
theorem hash_is_standard :
    (∀ updates : List (List UInt8),
      (updates.foldl Sha256.update ({} : Sha256)).finish = sha256 updates.flatten) ∧
    ∀ key message : List UInt8,
      hmacSha256 key message = hmac sha256 kShaBlockSize key message :=
  ⟨Sha256.finish_updates, hmacSha256_eq⟩

end BallyOS.KeyStore
