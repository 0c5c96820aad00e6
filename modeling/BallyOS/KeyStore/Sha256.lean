import BallyOS.Library.Fips180

/-! The key store's SHA-256 and HMAC, as they go over their arrays. -/
namespace BallyOS.KeyStore
open Library Fips180

def kShaDigestSize : Nat := 32
def kShaBlockSize : Nat := 64

def kShaRoundConstants : List UInt32 := [
  0x428A2F98, 0x71374491, 0xB5C0FBCF, 0xE9B5DBA5,
  0x3956C25B, 0x59F111F1, 0x923F82A4, 0xAB1C5ED5,
  0xD807AA98, 0x12835B01, 0x243185BE, 0x550C7DC3,
  0x72BE5D74, 0x80DEB1FE, 0x9BDC06A7, 0xC19BF174,
  0xE49B69C1, 0xEFBE4786, 0x0FC19DC6, 0x240CA1CC,
  0x2DE92C6F, 0x4A7484AA, 0x5CB0A9DC, 0x76F988DA,
  0x983E5152, 0xA831C66D, 0xB00327C8, 0xBF597FC7,
  0xC6E00BF3, 0xD5A79147, 0x06CA6351, 0x14292967,
  0x27B70A85, 0x2E1B2138, 0x4D2C6DFC, 0x53380D13,
  0x650A7354, 0x766A0ABB, 0x81C2C92E, 0x92722C85,
  0xA2BFE8A1, 0xA81A664B, 0xC24B8B70, 0xC76C51A3,
  0xD192E819, 0xD6990624, 0xF40E3585, 0x106AA070,
  0x19A4C116, 0x1E376C08, 0x2748774C, 0x34B0BCB5,
  0x391C0CB3, 0x4ED8AA4A, 0x5B9CCA4F, 0x682E6FF3,
  0x748F82EE, 0x78A5636F, 0x84C87814, 0x8CC70208,
  0x90BEFFFA, 0xA4506CEB, 0xBEF9A3F7, 0xC67178F2]

def rotateRight (value bits : UInt32) : UInt32 := value >>> bits ||| value <<< (32 - bits)

structure Sha256 where
  state : Words := ⟨0x6A09E667, 0xBB67AE85, 0x3C6EF372, 0xA54FF53A, 0x510E527F, 0x9B05688C,
    0x1F83D9AB, 0x5BE0CD19⟩
  block : Vector UInt8 kShaBlockSize := Vector.replicate kShaBlockSize 0
  pending : Nat := 0
  total : UInt64 := 0
  within : pending < kShaBlockSize := by decide

def loadWord (block : Vector UInt8 kShaBlockSize) (i : Nat) : UInt32 :=
  block[i * 4]!.toUInt32 <<< 24 ||| block[i * 4 + 1]!.toUInt32 <<< 16 |||
    block[i * 4 + 2]!.toUInt32 <<< 8 ||| block[i * 4 + 3]!.toUInt32

def scheduleWord (w : Vector UInt32 64) (i : Nat) : UInt32 :=
  let s0 := rotateRight w[i - 15]! 7 ^^^ rotateRight w[i - 15]! 18 ^^^ w[i - 15]! >>> 3
  let s1 := rotateRight w[i - 2]! 17 ^^^ rotateRight w[i - 2]! 19 ^^^ w[i - 2]! >>> 10
  w[i - 16]! + s0 + w[i - 7]! + s1

/-- The words of the block, and those behind them. -/
def messageSchedule (block : Vector UInt8 kShaBlockSize) : Vector UInt32 64 :=
  let w := (List.range 16).foldl (fun w i => w.set! i (loadWord block i)) (Vector.replicate 64 0)
  (List.range' 16 48).foldl (fun w i => w.set! i (scheduleWord w i)) w

/-- One round over the variables a to h. -/
def shaRound (constant word : UInt32) (v : Words) : Words :=
  let sigma1 := rotateRight v.e 6 ^^^ rotateRight v.e 11 ^^^ rotateRight v.e 25
  let choose := (v.e &&& v.f) ^^^ (~~~v.e &&& v.g)
  let t1 := v.h + sigma1 + choose + constant + word
  let sigma0 := rotateRight v.a 2 ^^^ rotateRight v.a 13 ^^^ rotateRight v.a 22
  let majority := (v.a &&& v.b) ^^^ (v.a &&& v.c) ^^^ (v.b &&& v.c)
  let t2 := sigma0 + majority
  { h := v.g, g := v.f, f := v.e, e := v.d + t1, d := v.c, c := v.b, b := v.a, a := t1 + t2 }

def sha256Compress (state : Words) (block : Vector UInt8 kShaBlockSize) : Words :=
  let w := messageSchedule block
  let v := (List.range 64).foldl
    (fun v i => shaRound (kShaRoundConstants.getD i 0) w[i]! v) state
  ⟨state.a + v.a, state.b + v.b, state.c + v.c, state.d + v.d, state.e + v.e, state.f + v.f,
    state.g + v.g, state.h + v.h⟩

namespace Sha256

/-- A byte of an update. -/
def push (sha : Sha256) (byte : UInt8) : Sha256 :=
  let block := sha.block.set sha.pending byte sha.within
  if full : sha.pending + 1 = kShaBlockSize then
    { state := sha256Compress sha.state block, block, total := sha.total }
  else
    { sha with
      block
      pending := sha.pending + 1
      within := Nat.lt_of_le_of_ne sha.within full }

def update (sha : Sha256) (data : List UInt8) : Sha256 :=
  data.foldl push { sha with total := sha.total + UInt64.ofNat data.length }

theorem push_pending (sha : Sha256) (byte : UInt8) :
    (sha.push byte).pending = (sha.pending + 1) % kShaBlockSize := by
  unfold push
  dsimp only
  split
  · rename_i full
    rw [full, Nat.mod_self]
  · rename_i short
    exact (Nat.mod_eq_of_lt (Nat.lt_of_le_of_ne sha.within short)).symm

private theorem update_one (sha : Sha256) (byte : UInt8) :
    sha.update [byte] = { sha with total := sha.total + 1 }.push byte := rfl

/-- Zeros up to the length field. -/
def fillZeros (sha : Sha256) : Sha256 :=
  if sha.pending = kShaBlockSize - 8 then sha else (sha.update [0]).fillZeros
termination_by (kShaBlockSize - 8 + kShaBlockSize - sha.pending) % kShaBlockSize
decreasing_by
  have within := sha.within
  rw [update_one, push_pending]
  unfold kShaBlockSize at *
  dsimp only
  omega

/-- The length of the message behind the padding. -/
def putLength (bits : UInt64) (block : Vector UInt8 kShaBlockSize) : Vector UInt8 kShaBlockSize :=
  (List.range 8).foldl (fun block i => block.set! (kShaBlockSize - 8 + i)
    (bits >>> (56 - 8 * UInt64.ofNat i)).toUInt8) block

/-- The bytes of a word, the highest first. -/
def storeWord (word : UInt32) : List UInt8 :=
  [(word >>> 24).toUInt8, (word >>> 16).toUInt8, (word >>> 8).toUInt8, word.toUInt8]

def finish (sha : Sha256) : List UInt8 :=
  let bits := sha.total * 8
  let padded := (sha.update [0x80]).fillZeros
  let state := sha256Compress padded.state (putLength bits padded.block)
  [state.a, state.b, state.c, state.d, state.e, state.f, state.g, state.h].flatMap storeWord

end Sha256

def hmacSha256 (key message : List UInt8) : List UInt8 :=
  let paddedKey : List UInt8 :=
    if key.length > kShaBlockSize then
      (({} : Sha256).update key).finish ++ List.replicate (kShaBlockSize - kShaDigestSize) 0
    else key ++ List.replicate (kShaBlockSize - key.length) 0
  let inner := ({} : Sha256).update (paddedKey.map (· ^^^ 0x36))
  let innerDigest := (inner.update message).finish
  let outer := ({} : Sha256).update (paddedKey.map (· ^^^ 0x5C))
  (outer.update innerDigest).finish

end BallyOS.KeyStore
