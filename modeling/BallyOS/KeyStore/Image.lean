import BallyOS.Library.ByteText
import BallyOS.Library.LittleEndian
import BallyOS.KeyStore.Digest

/-! The image of the key file: what the provisioning script writes, and what the
robot makes of one. The CRC-32 is the same on both sides. -/
namespace BallyOS.KeyStore
open Library

/-- An array of bytes. -/
abbrev Bytes (size : Nat) := Vector UInt8 size

def kFileSize : Nat := 96
def kKeyLength : Nat := 16
def kSaltLength : Nat := 16
def kVerifyLength : Nat := 8

def kFormatTwoKeys : UInt8 := 0x02
def kCipherAes128Gcm : UInt8 := 0x00
def kKdfPbkdf2HmacSha256 : UInt8 := 0x01

def kOffMagic : Nat := 0
def kOffFormat : Nat := 8
def kOffCipher : Nat := 9
def kOffKdf : Nat := 10
def kOffReserved1 : Nat := 11
def kOffIters : Nat := 12
def kOffSalt : Nat := 16
def kOffKeyE : Nat := 32
def kOffKeyL : Nat := 48
def kOffVerifyE : Nat := 64
def kOffVerifyL : Nat := 72
def kOffCrc : Nat := 92

def kMagic : List UInt8 := [0x42, 0x54, 0x50, 0x4B, 0x45, 0x59, 0x00, 0x00]

def kVerifyLabelE : List UInt8 := ascii "bally-canal-b"
def kVerifyLabelL : List UInt8 := ascii "bally-canal-c"

inductive Error
  | ok
  | size
  | magic
  | format
  | cipher
  | kdf
  | crc32
  | verifyE
  | verifyL
  | file
deriving DecidableEq

structure Contents where
  iterations : UInt32 := 0
  salt : Bytes kSaltLength := Vector.replicate kSaltLength 0
  keyE : Bytes kKeyLength := Vector.replicate kKeyLength 0
  keyL : Bytes kKeyLength := Vector.replicate kKeyLength 0
  verifyE : Bytes kVerifyLength := Vector.replicate kVerifyLength 0
  verifyL : Bytes kVerifyLength := Vector.replicate kVerifyLength 0
deriving DecidableEq

/-- `memcpy` out of an image. -/
def copyOf (data : List UInt8) (offset size : Nat) : Bytes size :=
  Vector.ofFn fun i => data[offset + i.val]!

def readU32Le (data : List UInt8) (offset : Nat) : UInt32 :=
  data[offset]!.toUInt32 ||| data[offset + 1]!.toUInt32 <<< 8 |||
    data[offset + 2]!.toUInt32 <<< 16 ||| data[offset + 3]!.toUInt32 <<< 24

def equalBytes (left right : List UInt8) (size : Nat) : Bool :=
  (List.range size).foldl (fun diff i => diff ||| (left[i]! ^^^ right[i]!)) 0 == 0

def verifyTagMatches (key label expected : List UInt8) (expectedSize : Nat) : Bool :=
  equalBytes (hmacSha256 key label) expected expectedSize

section
variable (crc32 : List UInt8 → UInt32)

/-- The first field that is wrong, in the order they are looked at. -/
def check (data : List UInt8) : Error :=
  if data.length ≠ kFileSize then .size
  else if (List.range kMagic.length).any fun i => data[kOffMagic + i]! != kMagic[i]! then .magic
  else if data[kOffFormat]! ≠ kFormatTwoKeys then .format
  else if data[kOffCipher]! ≠ kCipherAes128Gcm then .cipher
  else if data[kOffKdf]! ≠ kKdfPbkdf2HmacSha256 then .kdf
  else if crc32 (data.take kOffCrc) ≠ readU32Le data kOffCrc then .crc32
  else if ¬verifyTagMatches (copyOf data kOffKeyE kKeyLength).toList kVerifyLabelE
      (data.drop kOffVerifyE) kVerifyLength then .verifyE
  else if ¬verifyTagMatches (copyOf data kOffKeyL kKeyLength).toList kVerifyLabelL
      (data.drop kOffVerifyL) kVerifyLength then .verifyL
  else .ok

/-- What an image carries. -/
def extract (data : List UInt8) : Contents :=
  { iterations := readU32Le data kOffIters
    salt := copyOf data kOffSalt kSaltLength
    keyE := copyOf data kOffKeyE kKeyLength
    keyL := copyOf data kOffKeyL kKeyLength
    verifyE := copyOf data kOffVerifyE kVerifyLength
    verifyL := copyOf data kOffVerifyL kVerifyLength }

/-- The error, and the destination, which need not be there. -/
def parse (data : Option (List UInt8)) (out : Option Contents) : Error × Option Contents :=
  match data with
  | none => (.size, out)
  | some data =>
    let error := check crc32 data
    (error, if error = .ok then out.map fun _ => extract data else out)

/-- A slice assignment. -/
def assign (blob : List UInt8) (first last : Nat) (value : List UInt8) : List UInt8 :=
  blob.take first ++ value ++ blob.drop last

def kdfSalt : List UInt8 := ascii "bally-kdf-salt-1"
def kdfIterations : Nat := 200000

def verifyTag (key label : List UInt8) : List UInt8 :=
  (hmac Fips180.sha256 64 key label).take kVerifyLength

def fileCrc32 (blob : List UInt8) : UInt32 := crc32 (blob.take kOffCrc)

/-- The script's image for two passwords, from how it derives their keys. -/
def buildBlob {Password : Type} (deriveKey : Password → Bytes kKeyLength)
    (passwordE passwordL : Password) : List UInt8 :=
  let keyE := (deriveKey passwordE).toList
  let keyL := (deriveKey passwordL).toList
  let blob := List.replicate kFileSize 0
  let blob := assign blob kOffMagic (kOffMagic + 8) kMagic
  let blob := blob.set kOffFormat kFormatTwoKeys
  let blob := blob.set kOffCipher kCipherAes128Gcm
  let blob := blob.set kOffKdf kKdfPbkdf2HmacSha256
  let blob := blob.set kOffReserved1 0x00
  let blob := assign blob kOffIters (kOffIters + 4) (toBytes 4 kdfIterations)
  let blob := assign blob kOffSalt (kOffSalt + 16) kdfSalt
  let blob := assign blob kOffKeyE (kOffKeyE + kKeyLength) keyE
  let blob := assign blob kOffKeyL (kOffKeyL + kKeyLength) keyL
  let blob := assign blob kOffVerifyE (kOffVerifyE + kVerifyLength) (verifyTag keyE kVerifyLabelE)
  let blob := assign blob kOffVerifyL (kOffVerifyL + kVerifyLength) (verifyTag keyL kVerifyLabelL)
  assign blob kOffCrc (kOffCrc + 4) (toBytes 4 (fileCrc32 crc32 blob).toNat)

end

end BallyOS.KeyStore
