import ByteListing.Cipher.Aes
import ByteListing.Cipher.Des
import ByteListing.Cipher.Md5
import ByteListing.Pem.Block
import ByteListing.Text.Hex
import ByteListing.Text.Legible

/-! # Encrypted PEM blocks

The header `DEK-Info` of an encrypted block names a cipher and gives the initial vector.  The
key is made of digests of the password and the first octets of the vector, each digest also of
the one before it.  A wrong password shows in how the decrypted text is filled up. -/
set_option autoImplicit false
namespace ByteListing.Pem

inductive Encryption where
  | des
  | tripleDes
  | aes128
  | aes192
  | aes256
deriving Repr, DecidableEq

inductive EncryptionFlaw where
  | headerMissing
  | headerMalformed
  | unknownMode (name : String)
  | vectorMalformed
  | vectorSize
  | contentsSize
  | password
deriving Repr, DecidableEq

namespace EncryptionFlaw

def describe : EncryptionFlaw → String
  | headerMissing => "no DEK-Info header in block"
  | headerMalformed => "malformed DEK-Info header"
  | unknownMode name => "unknown encryption mode '" ++ name ++ "'"
  | vectorMalformed => "malformed IV in DEK-Info header"
  | vectorSize => "incorrect IV size"
  | contentsSize => "encrypted data is not a multiple of the block size"
  | password => "incorrect password"

end EncryptionFlaw

namespace Encryption

def name : Encryption → String
  | des => "DES-CBC"
  | tripleDes => "DES-EDE3-CBC"
  | aes128 => "AES-128-CBC"
  | aes192 => "AES-192-CBC"
  | aes256 => "AES-256-CBC"

def all : List Encryption := [des, tripleDes, aes128, aes192, aes256]

def ofName? (text : String) : Option Encryption :=
  all.find? fun encryption => encryption.name == text

def cipher : Encryption → BlockCipher
  | des => Des.cipher
  | tripleDes => Des.triple
  | aes128 => Aes.cipher 4
  | aes192 => Aes.cipher 6
  | aes256 => Aes.cipher 8

end Encryption

/-- A number of digests, each of the one before it, the password and the salt, one after the
other. -/
def digests (password salt : Bytes) : (count : Nat) → (previous : Bytes) → Bytes
  | 0, _ => []
  | count + 1, previous =>
    let digest := Md5.digest (previous ++ password ++ salt)
    digest ++ digests password salt count digest

/-- The key that a password gives: as many octets of its digests as the cipher takes. -/
def key (password salt : Bytes) (size : Nat) : Bytes :=
  (digests password salt ((size + 15) / 16) []).take size

def encryptionOf (info : String) : Except EncryptionFlaw (Encryption × Bytes) := do
  let some (mode, vector) := cut? [','] info.toList | throw .headerMalformed
  let name := String.ofList (trim Unicode.isWhiteSpace mode)
  let some encryption := Encryption.ofName? name | throw (.unknownMode name)
  match Hex.decode (trim Unicode.isWhiteSpace vector) with
  | .ok octets => return (encryption, octets)
  | .error _ => throw .vectorMalformed

def decrypt (block : Block) (password : Bytes) : Except EncryptionFlaw Bytes := do
  let some info := block.header? "DEK-Info" | throw .headerMissing
  let (encryption, vector) ← encryptionOf info
  let cipher := encryption.cipher
  if vector.length ≠ cipher.blockSize then
    throw .vectorSize
  if block.contents.isEmpty ∨ block.contents.length % cipher.blockSize ≠ 0 then
    throw .contentsSize
  let derived := key password (vector.take 8) cipher.keySize
  let some message := cipher.decryptMessage? derived vector block.contents | throw .password
  return message

end ByteListing.Pem
