import ByteListing.Pem.Encryption
import ByteListing.Proofs.Cipher.Aes
import ByteListing.Proofs.Cipher.Des
import ByteListing.Proofs.Text.Cut
import ByteListing.Proofs.Text.Hex

/-! # Encrypted blocks are decrypted

How blocks are encrypted.  The key is the beginning of a row of digests, of which as many are taken
as the cipher needs (`key_eq`), and the header gives the name of the cipher and the digits of the
vector, with white space around both (`EncryptionInfo`).  Whatever the password, the vector and the
message are, a block that was encrypted so is decrypted to the message
(`decryption_undoes_encryption`). -/
set_option autoImplicit false
namespace ByteListing.Pem

namespace Encryption

theorem ofName?_name (encryption : Encryption) : ofName? encryption.name = some encryption := by
  cases encryption <;> rfl

theorem invertible (encryption : Encryption) : encryption.cipher.Invertible := by
  cases encryption with
  | des => exact Des.invertible_cipher
  | tripleDes => exact Des.invertible_triple
  | aes128 => exact Aes.invertible_cipher 4
  | aes192 => exact Aes.invertible_cipher 6
  | aes256 => exact Aes.invertible_cipher 8

theorem visible_name (encryption : Encryption) :
    ∀ c ∈ encryption.name.toList, Unicode.isWhiteSpace c = false ∧ c ≠ ',' := by
  have all : encryption.name.toList.all
      (fun c => Unicode.isWhiteSpace c == false && c != ',') = true := by
    cases encryption <;> decide +kernel
  intro c member
  have visible := List.all_eq_true.mp all c member
  rwa [Bool.and_eq_true, beq_iff_eq, bne_iff_ne] at visible

end Encryption

/-! ## Keys -/

/-- The digests that keys are made of.  Each but the first is also a digest of the one before it. -/
def keyDigest (password salt : Bytes) : (index : Nat) → Bytes
  | 0 => Md5.digest (password ++ salt)
  | index + 1 => Md5.digest (keyDigest password salt index ++ password ++ salt)

theorem length_keyDigest (password salt : Bytes) (index : Nat) :
    (keyDigest password salt index).length = 16 := by
  cases index <;> exact Md5.length_digest _

def keyDigests (password salt : Bytes) (count : Nat) : Bytes :=
  (List.range count).flatMap (keyDigest password salt)

theorem length_keyDigests (password salt : Bytes) (count : Nat) :
    (keyDigests password salt count).length = 16 * count := by
  have lengths : ∀ digest ∈ (List.range count).map (keyDigest password salt),
      digest.length = 16 := by
    intro digest member
    obtain ⟨index, -, rfl⟩ := List.mem_map.mp member
    exact length_keyDigest password salt index
  rw [keyDigests, List.flatMap_def, Bytes.length_flatten lengths, List.length_map,
    List.length_range]

theorem digests_behind (password salt : Bytes) (count index : Nat) :
    digests password salt count (keyDigest password salt index) =
      (List.range' (index + 1) count).flatMap (keyDigest password salt) := by
  induction count generalizing index with
  | zero => rfl
  | succ count inductionHypothesis =>
      have next : Md5.digest (keyDigest password salt index ++ password ++ salt) =
          keyDigest password salt (index + 1) := rfl
      rw [digests, next, inductionHypothesis, List.range'_succ, List.flatMap_cons]

theorem digests_eq (password salt : Bytes) (count : Nat) :
    digests password salt count [] = keyDigests password salt count := by
  cases count with
  | zero => rfl
  | succ count =>
      have first : Md5.digest ([] ++ password ++ salt) = keyDigest password salt 0 := rfl
      rw [digests, first, digests_behind, keyDigests, List.range_eq_range', List.range'_succ,
        List.flatMap_cons]

theorem key_eq (password salt : Bytes) {size count : Nat} (enough : size ≤ 16 * count) :
    key password salt size = (keyDigests password salt count).take size := by
  obtain ⟨more, rfl⟩ : ∃ more, count = (size + 15) / 16 + more :=
    ⟨count - (size + 15) / 16, by omega⟩
  have reaches : size ≤ (keyDigests password salt ((size + 15) / 16)).length := by
    rw [length_keyDigests]
    omega
  -- Digests beyond those that are taken only stand behind them.
  have split : keyDigests password salt ((size + 15) / 16 + more) =
      keyDigests password salt ((size + 15) / 16) ++
        ((List.range more).map ((size + 15) / 16 + ·)).flatMap (keyDigest password salt) := by
    rw [keyDigests, List.range_add, List.flatMap_append, keyDigests]
  rw [key, digests_eq, split, List.take_append_of_le_length reaches]

/-! ## Headers -/

/-- How a header names a cipher and gives a vector: with white space around both, and with digits
of either case. -/
structure EncryptionInfo (encryption : Encryption) (vector : Bytes) where
  beforeName : List Char
  afterName : List Char
  beforeDigits : List Char
  digits : List Char
  afterDigits : List Char
  blank : ∀ c ∈ beforeName ++ afterName ++ (beforeDigits ++ afterDigits),
    Unicode.isWhiteSpace c = true
  written : digits.map Char.toLower = Hex.digits vector

namespace EncryptionInfo

variable {encryption : Encryption} {vector : Bytes} (info : EncryptionInfo encryption vector)

def text : String :=
  String.ofList (info.beforeName ++ (encryption.name.toList ++ info.afterName) ++
    ',' :: (info.beforeDigits ++ (info.digits ++ info.afterDigits)))

theorem visible_digits : ∀ c ∈ info.digits, Unicode.isWhiteSpace c = false := by
  have visible : ∀ code < 128, (Hex.value? (Char.ofNat code)).isSome = true →
      Unicode.isWhiteSpace (Char.ofNat code) = false := by decide +kernel
  intro c member
  exact Hex.forall_digit (Unicode.isWhiteSpace · = false) visible
    (Hex.value?_of_toLower info.written member)

theorem no_comma : ',' ∉ info.beforeName ++ (encryption.name.toList ++ info.afterName) := by
  have blankNe : ∀ c ∈ info.beforeName ++ info.afterName, c ≠ ',' := by
    rintro c member rfl
    cases info.blank ',' (List.mem_append_left _ member)
  intro member
  rcases List.mem_append.mp member with before | member
  · exact blankNe ',' (List.mem_append_left _ before) rfl
  · rcases List.mem_append.mp member with inName | after
    · exact (encryption.visible_name ',' inName).2 rfl
    · exact blankNe ',' (List.mem_append_right _ after) rfl

theorem trim_name : trim Unicode.isWhiteSpace
    (info.beforeName ++ (encryption.name.toList ++ info.afterName)) = encryption.name.toList := by
  have occupied : encryption.name.toList ≠ [] := by cases encryption <;> decide +kernel
  refine trim_blanks occupied (fun c member => ?_) (fun c member => ?_) (fun c member => ?_)
    (fun c member => ?_)
  · exact info.blank c (List.mem_append_left _ (List.mem_append_left _ member))
  · exact info.blank c (List.mem_append_left _ (List.mem_append_right _ member))
  · exact (encryption.visible_name c (List.mem_of_head? member)).1
  · exact (encryption.visible_name c (List.mem_of_getLast? member)).1

theorem trim_digits (occupied : vector ≠ []) : trim Unicode.isWhiteSpace
    (info.beforeDigits ++ (info.digits ++ info.afterDigits)) = info.digits := by
  have digitsOccupied : info.digits ≠ [] := by
    intro empty
    have lengths := congrArg List.length info.written
    rw [empty, Hex.length_digits] at lengths
    have positive := List.length_pos_iff.mpr occupied
    rw [List.map_nil, List.length_nil] at lengths
    omega
  refine trim_blanks digitsOccupied (fun c member => ?_) (fun c member => ?_)
    (fun c member => ?_) (fun c member => ?_)
  · exact info.blank c (List.mem_append_right _ (List.mem_append_left _ member))
  · exact info.blank c (List.mem_append_right _ (List.mem_append_right _ member))
  · exact info.visible_digits c (List.mem_of_head? member)
  · exact info.visible_digits c (List.mem_of_getLast? member)

theorem encryptionOf_text (occupied : vector ≠ []) :
    encryptionOf info.text = .ok (encryption, vector) := by
  have cut := cut?_singleton info.no_comma
    (info.beforeDigits ++ (info.digits ++ info.afterDigits))
  simp only [encryptionOf, text, String.toList_ofList, cut, info.trim_name,
    info.trim_digits occupied, String.ofList_toList, Encryption.ofName?_name,
    Hex.decode_of_toLower info.written]
  rfl

end EncryptionInfo

/-- A block that was encrypted under a password is decrypted to the message under it. -/
theorem decryption_undoes_encryption {encryption : Encryption}
    {password vector message : Bytes} {count : Nat} {block : Block}
    (info : EncryptionInfo encryption vector)
    (size : vector.length = encryption.cipher.blockSize)
    (enough : encryption.cipher.keySize ≤ 16 * count)
    (header : block.header? "DEK-Info" = some info.text)
    (contents : block.contents = encryption.cipher.encryptMessage
      ((keyDigests password (vector.take 8) count).take encryption.cipher.keySize) vector message) :
    decrypt block password = .ok message := by
  have invertible := encryption.invertible
  have occupied : vector ≠ [] := by
    refine List.length_pos_iff.mp ?_
    rw [size]
    exact invertible.positive
  rw [← key_eq password (vector.take 8) enough] at contents
  have filled := BlockCipher.length_fill invertible.positive message
  rw [← BlockCipher.length_encryptMessage invertible
    (key password (vector.take 8) encryption.cipher.keySize) size message, ← contents] at filled
  have decrypted := BlockCipher.decryptMessage?_encryptMessage invertible
    (key password (vector.take 8) encryption.cipher.keySize) size message
  rw [← contents] at decrypted
  have whole : ¬(block.contents.isEmpty = true ∨
      block.contents.length % encryption.cipher.blockSize ≠ 0) := by
    rw [List.isEmpty_iff_length_eq_zero]
    omega
  simp only [decrypt, header, info.encryptionOf_text occupied, size, ne_eq, not_true_eq_false,
    if_false, if_neg whole, decrypted, bind, Except.bind, pure, Except.pure]

def spacedInfo : EncryptionInfo .aes128 [0x00, 0x11, 0x22, 0x33, 0x44, 0x55, 0x66, 0x77,
    0x88, 0x99, 0xAA, 0xBB, 0xCC, 0xDD, 0xEE, 0xFF] where
  beforeName := []
  afterName := []
  beforeDigits := [' ']
  digits := "00112233445566778899aabbCCDDEEFF".toList
  afterDigits := []
  blank := List.all_eq_true.mp (by decide +kernel)
  written := by decide +kernel

def encryptedSequence : Block where
  label := "RSA PRIVATE KEY"
  headers := [("Proc-Type", "4,ENCRYPTED"),
    ("DEK-Info", "AES-128-CBC, 00112233445566778899aabbCCDDEEFF")]
  contents := [0x27, 0x84, 0x47, 0xAC, 0xB3, 0x17, 0xA2, 0xE0,
    0x38, 0x61, 0x98, 0xDB, 0x0A, 0xEF, 0x8D, 0xE5]

theorem encrypted_sequence_is_decrypted :
    encryptedSequence.header? "DEK-Info" = some spacedInfo.text ∧
    decrypt encryptedSequence (Utf8.encode "secret".toList) =
      .ok [0x30, 0x03, 0x02, 0x01, 0x01] := by
  have size : 16 = Encryption.aes128.cipher.blockSize := rfl
  have enough : Encryption.aes128.cipher.keySize ≤ 16 * 1 := by decide +kernel
  have header : encryptedSequence.header? "DEK-Info" = some spacedInfo.text := by decide +kernel
  refine ⟨header, decryption_undoes_encryption spacedInfo size enough header ?_⟩
  decide +kernel

end ByteListing.Pem
