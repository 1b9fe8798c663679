import ByteListing.Bytes

/-! # Block ciphers in chained blocks

A block cipher turns blocks of a fixed size into such blocks under a key.  Longer messages are
filled up to whole blocks with octets that hold their own count, and each block is combined
with the encrypted one before it; the first is combined with an initial vector. -/
set_option autoImplicit false
namespace ByteListing

structure BlockCipher where
  keySize : Nat
  blockSize : Nat
  Schedule : Type
  expand : Bytes → Schedule
  encrypt : Schedule → Bytes → Bytes
  decrypt : Schedule → Bytes → Bytes

def Bytes.xor (left right : Bytes) : Bytes := List.zipWith (· ^^^ ·) left right

namespace BlockCipher

/-- A message filled up to whole blocks with one to `size` octets that hold their count. -/
def fill (size : Nat) (message : Bytes) : Bytes :=
  let count := size - message.length % size
  message ++ List.replicate count (UInt8.ofNat count)

def unfill? (size : Nat) (filled : Bytes) : Option Bytes :=
  match filled.getLast? with
  | none => none
  | some last =>
    let count := last.toNat
    let message := filled.take (filled.length - count)
    if 0 < count ∧ count ≤ size ∧ count ≤ filled.length ∧
        filled.drop message.length = List.replicate count last then
      some message
    else
      none

def chain (cipher : BlockCipher) (schedule : cipher.Schedule) :
    Bytes → List Bytes → List Bytes
  | _, [] => []
  | previous, block :: rest =>
    let encrypted := cipher.encrypt schedule (Bytes.xor previous block)
    encrypted :: cipher.chain schedule encrypted rest

def unchain (cipher : BlockCipher) (schedule : cipher.Schedule) :
    Bytes → List Bytes → List Bytes
  | _, [] => []
  | previous, block :: rest =>
    Bytes.xor previous (cipher.decrypt schedule block) :: cipher.unchain schedule block rest

def encryptMessage (cipher : BlockCipher) (key vector message : Bytes) : Bytes :=
  let blocks := (fill cipher.blockSize message).chunks cipher.blockSize
  (cipher.chain (cipher.expand key) vector blocks).flatten

def decryptMessage? (cipher : BlockCipher) (key vector data : Bytes) : Option Bytes :=
  let blocks := data.chunks cipher.blockSize
  unfill? cipher.blockSize (cipher.unchain (cipher.expand key) vector blocks).flatten

end BlockCipher

end ByteListing
