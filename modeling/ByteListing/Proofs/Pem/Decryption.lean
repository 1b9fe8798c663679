import ByteListing.Der.Request
import ByteListing.Proofs.Cipher.Messages
import ByteListing.Proofs.Pem.Encryption
import ByteListing.Proofs.Text.HexDump

/-! # Decryption is safe

What the decryption of any block under any password ends in.  A message is found only in whole
blocks, at least one, under a header that names a cipher and gives a vector of its block size
(`exists_info_of_encryptionOf`), and it is shorter than they are by at most a block.

The decryption takes it for granted that the vector has the octets of the salt, and that key and
vector have the sizes that the cipher takes.  `watchedDecrypt` asks each time, and ends in a
`Mishap` where that is not so; by `watchedDecrypt_of_ends` there is none, whatever the block
holds. -/
set_option autoImplicit false
namespace ByteListing.Pem

/-! ## What a header says -/

theorem Encryption.name_of_ofName? {text : String} {encryption : Encryption}
    (found : ofName? text = some encryption) : text = encryption.name := by
  have named := List.find?_some found
  rw [beq_iff_eq] at named
  exact named.symm

theorem exists_info_of_encryptionOf {text : String} {encryption : Encryption} {vector : Bytes}
    (read : encryptionOf text = .ok (encryption, vector)) :
    ∃ info : EncryptionInfo encryption vector, info.text = text := by
  rw [encryptionOf] at read
  cases parts : cut? [','] text.toList with
  | none =>
      rw [parts] at read
      cases read
  | some found =>
      obtain ⟨mode, digits⟩ := found
      rw [parts] at read
      dsimp only at read
      cases named : Encryption.ofName? (String.ofList (trim Unicode.isWhiteSpace mode)) with
      | none =>
          rw [named] at read
          cases read
      | some cipher =>
          rw [named] at read
          dsimp only at read
          cases decoded : Hex.decode (trim Unicode.isWhiteSpace digits) with
          | error flaw =>
              rw [decoded] at read
              cases read
          | ok octets =>
              rw [decoded] at read
              cases read
              have nameEq := congrArg String.toList (Encryption.name_of_ofName? named)
              rw [String.toList_ofList] at nameEq
              obtain ⟨beforeName, afterName, modeEq, nameBlanks⟩ :=
                exists_blanks_around_trim Unicode.isWhiteSpace mode
              obtain ⟨beforeDigits, afterDigits, digitsEq, digitBlanks⟩ :=
                exists_blanks_around_trim Unicode.isWhiteSpace digits
              refine ⟨⟨beforeName, afterName, beforeDigits, trim Unicode.isWhiteSpace digits,
                afterDigits, fun c member => ?_, Hex.decode_eq_ok_iff.mp decoded⟩, ?_⟩
              · rcases List.mem_append.mp member with aroundName | aroundDigits
                · exact nameBlanks c aroundName
                · exact digitBlanks c aroundDigits
              · obtain ⟨whole, -⟩ := cut?_eq_some_iff.mp parts
                rw [EncryptionInfo.text, ← nameEq, ← modeEq, ← digitsEq]
                refine String.toList_inj.mp ?_
                rw [String.toList_ofList, whole, List.singleton_append]

/-! ## Keys -/

theorem length_key (password salt : Bytes) (size : Nat) :
    (key password salt size).length = size := by
  have enough : size ≤ 16 * size := by omega
  rw [key_eq password salt enough, List.length_take, length_keyDigests]
  omega

theorem Encryption.salt_le_blockSize (encryption : Encryption) :
    8 ≤ encryption.cipher.blockSize := by
  cases encryption <;> decide

/-! ## What a decryption ends in -/

/-- What the decryption of a block under a password ends in, with one case for each check. -/
inductive Ends (block : Block) (password : Bytes) : Except EncryptionFlaw Bytes → Prop
  | headerMissing : block.header? "DEK-Info" = none → Ends block password (.error .headerMissing)
  | header {info : String} {flaw : EncryptionFlaw} :
      block.header? "DEK-Info" = some info → encryptionOf info = .error flaw →
      Ends block password (.error flaw)
  | vectorSize {info : String} {encryption : Encryption} {vector : Bytes} :
      block.header? "DEK-Info" = some info → encryptionOf info = .ok (encryption, vector) →
      vector.length ≠ encryption.cipher.blockSize → Ends block password (.error .vectorSize)
  | contentsSize {info : String} {encryption : Encryption} {vector : Bytes} :
      block.header? "DEK-Info" = some info → encryptionOf info = .ok (encryption, vector) →
      vector.length = encryption.cipher.blockSize →
      block.contents.isEmpty = true ∨ block.contents.length % encryption.cipher.blockSize ≠ 0 →
      Ends block password (.error .contentsSize)
  | password {info : String} {encryption : Encryption} {vector : Bytes} :
      block.header? "DEK-Info" = some info → encryptionOf info = .ok (encryption, vector) →
      vector.length = encryption.cipher.blockSize →
      ¬(block.contents.isEmpty = true ∨
        block.contents.length % encryption.cipher.blockSize ≠ 0) →
      encryption.cipher.decryptMessage? (key password (vector.take 8) encryption.cipher.keySize)
        vector block.contents = none →
      Ends block password (.error .password)
  | message {info : String} {encryption : Encryption} {vector message : Bytes} :
      block.header? "DEK-Info" = some info → encryptionOf info = .ok (encryption, vector) →
      vector.length = encryption.cipher.blockSize →
      ¬(block.contents.isEmpty = true ∨
        block.contents.length % encryption.cipher.blockSize ≠ 0) →
      encryption.cipher.decryptMessage? (key password (vector.take 8) encryption.cipher.keySize)
        vector block.contents = some message →
      Ends block password (.ok message)

theorem ends_decrypt (block : Block) (password : Bytes) :
    Ends block password (decrypt block password) := by
  cases header : block.header? "DEK-Info" with
  | none =>
      simp only [decrypt, header]
      exact .headerMissing header
  | some info =>
      cases read : encryptionOf info with
      | error flaw =>
          simp only [decrypt, header, read, bind, Except.bind]
          exact .header header read
      | ok found =>
          obtain ⟨encryption, vector⟩ := found
          by_cases size : vector.length = encryption.cipher.blockSize
          · by_cases partly : block.contents.isEmpty = true ∨
                block.contents.length % encryption.cipher.blockSize ≠ 0
            · simp only [decrypt, header, read, size, ne_eq, not_true_eq_false, if_false, bind,
                Except.bind]
              rw [if_pos partly]
              exact .contentsSize header read size partly
            · simp only [decrypt, header, read, size, ne_eq, not_true_eq_false, if_false,
                if_neg partly, bind, Except.bind]
              cases opened : encryption.cipher.decryptMessage?
                (key password (vector.take 8) encryption.cipher.keySize) vector block.contents with
              | none => exact .password header read size partly opened
              | some message => exact .message header read size partly opened
          · simp only [decrypt, header, read, bind, Except.bind]
            rw [if_pos size]
            exact .vectorSize header read size

/-! ## Nothing is taken for granted -/

/-- What would go wrong in a decryption if sizes were not as they have to be. -/
inductive Mishap where
  /-- Octets are taken from beyond the end of a vector. -/
  | beyondEnd
  /-- A cipher is set up with a key or a vector of another size than it takes. -/
  | keyOrVectorSize
deriving Repr, DecidableEq

def takeOctets (count : Nat) (data : Bytes) : Except Mishap Bytes :=
  if count ≤ data.length then .ok (data.take count) else .error .beyondEnd

def decryptSized (cipher : BlockCipher) (key vector data : Bytes) :
    Except Mishap (Option Bytes) :=
  if key.length = cipher.keySize ∧ vector.length = cipher.blockSize then
    .ok (cipher.decryptMessage? key vector data)
  else
    .error .keyOrVectorSize

/-- A decryption that takes no size for granted: what it ends in, unless there is a mishap. -/
def watchedDecrypt (block : Block) (password : Bytes) :
    Except Mishap (Except EncryptionFlaw Bytes) :=
  match block.header? "DEK-Info" with
  | none => .ok (.error .headerMissing)
  | some info =>
    match encryptionOf info with
    | .error flaw => .ok (.error flaw)
    | .ok (encryption, vector) =>
      let cipher := encryption.cipher
      if vector.length ≠ cipher.blockSize then
        .ok (.error .vectorSize)
      else if block.contents.isEmpty ∨ block.contents.length % cipher.blockSize ≠ 0 then
        .ok (.error .contentsSize)
      else do
        let salt ← takeOctets 8 vector
        match ← decryptSized cipher (key password salt cipher.keySize) vector block.contents with
        | some message => return .ok message
        | none => return .error .password

theorem takeOctets_salt {encryption : Encryption} {vector : Bytes}
    (size : vector.length = encryption.cipher.blockSize) :
    takeOctets 8 vector = .ok (vector.take 8) := by
  have enough : 8 ≤ vector.length := by
    rw [size]
    exact encryption.salt_le_blockSize
  rw [takeOctets, if_pos enough]

theorem decryptSized_key {cipher : BlockCipher} {vector : Bytes}
    (size : vector.length = cipher.blockSize) (password salt data : Bytes) :
    decryptSized cipher (key password salt cipher.keySize) vector data =
      .ok (cipher.decryptMessage? (key password salt cipher.keySize) vector data) := by
  rw [decryptSized, if_pos ⟨length_key password salt cipher.keySize, size⟩]

theorem watchedDecrypt_of_ends {block : Block} {password : Bytes}
    {result : Except EncryptionFlaw Bytes} (ends : Ends block password result) :
    watchedDecrypt block password = .ok result := by
  cases ends with
  | headerMissing header => simp only [watchedDecrypt, header]
  | header header read => simp only [watchedDecrypt, header, read]
  | vectorSize header read size => simp only [watchedDecrypt, header, read, if_pos size]
  | contentsSize header read size partly =>
      simp only [watchedDecrypt, header, read, size, ne_eq, not_true_eq_false, if_false]
      rw [if_pos partly]
  | password header read size partly opened =>
      simp only [watchedDecrypt, header, read, size, ne_eq, not_true_eq_false, if_false,
        if_neg partly, takeOctets_salt size, decryptSized_key size, opened, bind, Except.bind]
      rfl
  | message header read size partly opened =>
      simp only [watchedDecrypt, header, read, size, ne_eq, not_true_eq_false, if_false,
        if_neg partly, takeOctets_salt size, decryptSized_key size, opened, bind, Except.bind]
      rfl

/-! ## What is decrypted -/

theorem exists_info_of_decrypt {block : Block} {password message : Bytes}
    (success : decrypt block password = .ok message) :
    ∃ (encryption : Encryption) (vector : Bytes) (info : EncryptionInfo encryption vector),
      block.header? "DEK-Info" = some info.text ∧
      vector.length = encryption.cipher.blockSize ∧ block.contents ≠ [] ∧
      block.contents.length % encryption.cipher.blockSize = 0 ∧
      block.contents.length - encryption.cipher.blockSize ≤ message.length ∧
      message.length < block.contents.length := by
  have ends := ends_decrypt block password
  rw [success] at ends
  cases ends with
  | @message _ encryption vector _ header read size partly opened =>
      obtain ⟨info, rfl⟩ := exists_info_of_encryptionOf read
      rw [not_or, not_not, List.isEmpty_iff] at partly
      obtain ⟨occupied, whole⟩ := partly
      have bounds := BlockCipher.length_of_decryptMessage? encryption.invertible _ size whole opened
      exact ⟨encryption, vector, info, header, size, occupied, whole, bounds⟩

theorem bytes_or_decryption (block : Block) (password : String) (labelled : Bool) :
    (∃ message, (Der.Source.block block (some password) labelled).bytes = .ok message) ∨
      ∃ flaw : EncryptionFlaw, (Der.Source.block block (some password) labelled).bytes =
        .error (.decryption flaw.describe) := by
  rw [Der.Source.bytes]
  cases decrypt block (Utf8.encode password.toList) with
  | ok message => exact .inl ⟨message, rfl⟩
  | error flaw => exact .inr ⟨flaw, rfl⟩

/-- Whatever a block holds and whatever the password is, decryption takes no octets from beyond the
end of others, and derives a key of the size that the cipher takes.  It ends in a message or in a
fault of decryption.  In a message it ends only if the header names a cipher and gives a vector of
its block size, and the contents are one or more whole blocks; the message is shorter than these, by
at most a block. -/
theorem decryption_is_safe (block : Block) (password : Bytes) :
    watchedDecrypt block password = .ok (decrypt block password) ∧
    (∀ (encryption : Encryption) (salt : Bytes),
      (key password salt encryption.cipher.keySize).length = encryption.cipher.keySize) ∧
    (∀ (text : String) (labelled : Bool),
      (∃ message, (Der.Source.block block (some text) labelled).bytes = .ok message) ∨
        ∃ flaw : EncryptionFlaw, (Der.Source.block block (some text) labelled).bytes =
          .error (.decryption flaw.describe)) ∧
    ∀ message, decrypt block password = .ok message →
      ∃ (encryption : Encryption) (vector : Bytes) (info : EncryptionInfo encryption vector),
        block.header? "DEK-Info" = some info.text ∧
        vector.length = encryption.cipher.blockSize ∧ block.contents ≠ [] ∧
        block.contents.length % encryption.cipher.blockSize = 0 ∧
        block.contents.length - encryption.cipher.blockSize ≤ message.length ∧
        message.length < block.contents.length := by
  refine ⟨watchedDecrypt_of_ends (ends_decrypt block password), ?_, bytes_or_decryption block, ?_⟩
  · intro encryption salt
    exact length_key password salt encryption.cipher.keySize
  · intro message success
    exact exists_info_of_decrypt success

theorem encrypted_sequence_is_one_block :
    decrypt encryptedSequence (Utf8.encode "secret".toList) = .ok [0x30, 0x03, 0x02, 0x01, 0x01] ∧
    ∃ (encryption : Encryption) (vector : Bytes) (info : EncryptionInfo encryption vector),
      encryptedSequence.header? "DEK-Info" = some info.text ∧
      vector.length = encryption.cipher.blockSize ∧ encryptedSequence.contents ≠ [] ∧
      encryptedSequence.contents.length % encryption.cipher.blockSize = 0 ∧
      encryptedSequence.contents.length - encryption.cipher.blockSize ≤ 5 ∧
      5 < encryptedSequence.contents.length := by
  have success : decrypt encryptedSequence (Utf8.encode "secret".toList) =
      .ok [0x30, 0x03, 0x02, 0x01, 0x01] := by
    have found : (decrypt encryptedSequence (Utf8.encode "secret".toList)).toOption =
        some [0x30, 0x03, 0x02, 0x01, 0x01] := by decide +kernel
    cases ended : decrypt encryptedSequence (Utf8.encode "secret".toList) with
    | error flaw =>
        rw [ended] at found
        cases found
    | ok message =>
        rw [ended] at found
        rw [Option.some.inj found]
  exact ⟨success, (decryption_is_safe encryptedSequence _).2.2.2 _ success⟩

end ByteListing.Pem
