import ByteListing.Cipher.BlockCipher
import ByteListing.Proofs.Bytes.Chunks

/-! # Chained blocks are undone

A block that is combined twice with the same octets is left as it was, so a chain of blocks is
undone block by block (`unchain_chain`) by a cipher that undoes what it does to one block
(`Invertible`).  What a message was filled up with tells its own length (`unfill?_fill`): together,
a message is decrypted to what was encrypted (`decryptMessage?_encryptMessage`). -/
set_option autoImplicit false
namespace ByteListing

namespace Bytes

theorem length_xor {pad data : Bytes} (same : pad.length = data.length) :
    (xor pad data).length = data.length := by
  rw [xor, List.length_zipWith, same, Nat.min_self]

theorem xor_xor {pad data : Bytes} (enough : data.length ≤ pad.length) :
    xor pad (xor pad data) = data := by
  induction pad generalizing data with
  | nil =>
      rw [List.length_eq_zero_iff.mp (Nat.le_zero.mp enough)]
      rfl
  | cons byte rest inductionHypothesis =>
      cases data with
      | nil => rfl
      | cons first others =>
          have undone : byte ^^^ (byte ^^^ first) = first := by
            rw [← UInt8.xor_assoc, UInt8.xor_self, UInt8.zero_xor]
          have later := inductionHypothesis (Nat.le_of_succ_le_succ enough)
          simp only [xor, List.zipWith_cons_cons] at later ⊢
          rw [undone, later]

theorem chunks_flatten {size : Nat} (positive : 0 < size) {pieces : List Bytes}
    (lengths : ∀ piece ∈ pieces, piece.length = size) : chunks size pieces.flatten = pieces := by
  induction pieces with
  | nil =>
      have short : ¬(0 < size ∧ size ≤ ([] : Bytes).length) := by
        rw [List.length_nil]
        omega
      rw [List.flatten_nil, chunks, dif_neg short]
  | cons piece rest inductionHypothesis =>
      rw [List.flatten_cons, chunks_append positive (lengths piece List.mem_cons_self),
        inductionHypothesis fun other member => lengths other (List.mem_cons_of_mem _ member)]

theorem length_flatten {size : Nat} {pieces : List Bytes}
    (lengths : ∀ piece ∈ pieces, piece.length = size) :
    pieces.flatten.length = size * pieces.length := by
  induction pieces with
  | nil => rfl
  | cons piece rest inductionHypothesis =>
      rw [List.flatten_cons, List.length_append, lengths piece List.mem_cons_self,
        inductionHypothesis fun other member => lengths other (List.mem_cons_of_mem _ member),
        List.length_cons, Nat.mul_succ, Nat.add_comm]

end Bytes

namespace BlockCipher

/-! ## Whole blocks -/

theorem fill_count {size : Nat} (positive : 0 < size) (message : Bytes) :
    0 < size - message.length % size ∧ size - message.length % size ≤ size := by
  have short := Nat.mod_lt message.length positive
  omega

theorem length_fill {size : Nat} (positive : 0 < size) (message : Bytes) :
    (fill size message).length % size = 0 ∧ 0 < (fill size message).length := by
  have short := Nat.mod_lt message.length positive
  have split := Nat.div_add_mod message.length size
  have whole : (fill size message).length = size * (message.length / size + 1) := by
    rw [fill, List.length_append, List.length_replicate, Nat.mul_add]
    omega
  rw [whole]
  exact ⟨Nat.mul_mod_right .., Nat.mul_pos positive (Nat.succ_pos _)⟩

theorem unfill?_append {size count : Nat} (someOctet : 0 < count) (atMost : count ≤ size)
    (small : size < 256) (message : Bytes) :
    unfill? size (message ++ List.replicate count (UInt8.ofNat count)) = some message := by
  have last : (message ++ List.replicate count (UInt8.ofNat count)).getLast? =
      some (UInt8.ofNat count) := by
    rw [List.getLast?_append, List.getLast?_replicate, if_neg (by omega), Option.some_or]
  have value : (UInt8.ofNat count).toNat = count := by
    rw [UInt8.toNat_ofNat']
    omega
  rw [unfill?, last]
  simp only [value, List.length_append, List.length_replicate, Nat.add_sub_cancel, List.take_left,
    List.drop_left]
  rw [if_pos ⟨someOctet, atMost, Nat.le_add_left .., trivial⟩]

theorem unfill?_fill {size : Nat} (positive : 0 < size) (small : size < 256) (message : Bytes) :
    unfill? size (fill size message) = some message := by
  obtain ⟨someOctet, atMost⟩ := fill_count positive message
  rw [fill]
  exact unfill?_append someOctet atMost small message

/-! ## Chains -/

/-- A cipher that turns blocks into blocks, and back, under every key. -/
structure Invertible (cipher : BlockCipher) : Prop where
  positive : 0 < cipher.blockSize
  small : cipher.blockSize < 256
  length_encrypt : ∀ key block, block.length = cipher.blockSize →
    (cipher.encrypt (cipher.expand key) block).length = cipher.blockSize
  decrypt_encrypt : ∀ key block, block.length = cipher.blockSize →
    cipher.decrypt (cipher.expand key) (cipher.encrypt (cipher.expand key) block) = block

section

variable {cipher : BlockCipher} (invertible : cipher.Invertible) (key : Bytes)
include invertible

omit invertible in
theorem length_chain (previous : Bytes) (blocks : List Bytes) :
    (cipher.chain (cipher.expand key) previous blocks).length = blocks.length := by
  induction blocks generalizing previous with
  | nil => rfl
  | cons block rest inductionHypothesis =>
      rw [chain, List.length_cons, inductionHypothesis, List.length_cons]

theorem length_of_mem_chain {previous : Bytes} {blocks : List Bytes}
    (length : previous.length = cipher.blockSize)
    (lengths : ∀ block ∈ blocks, block.length = cipher.blockSize) :
    ∀ block ∈ cipher.chain (cipher.expand key) previous blocks,
      block.length = cipher.blockSize := by
  induction blocks generalizing previous with
  | nil => nofun
  | cons block rest inductionHypothesis =>
      have blockLength := lengths block List.mem_cons_self
      have combined : (Bytes.xor previous block).length = cipher.blockSize := by
        rw [Bytes.length_xor (length.trans blockLength.symm), blockLength]
      have encrypted := invertible.length_encrypt key _ combined
      intro other member
      rcases List.mem_cons.mp member with rfl | later
      · exact encrypted
      · exact inductionHypothesis encrypted
          (fun found inside => lengths found (List.mem_cons_of_mem _ inside)) other later

theorem unchain_chain {previous : Bytes} {blocks : List Bytes}
    (length : previous.length = cipher.blockSize)
    (lengths : ∀ block ∈ blocks, block.length = cipher.blockSize) :
    cipher.unchain (cipher.expand key) previous
      (cipher.chain (cipher.expand key) previous blocks) = blocks := by
  induction blocks generalizing previous with
  | nil => rfl
  | cons block rest inductionHypothesis =>
      have blockLength := lengths block List.mem_cons_self
      have same := length.trans blockLength.symm
      have combined : (Bytes.xor previous block).length = cipher.blockSize := by
        rw [Bytes.length_xor same, blockLength]
      have later := inductionHypothesis (invertible.length_encrypt key _ combined)
        fun other member => lengths other (List.mem_cons_of_mem _ member)
      rw [chain, unchain, invertible.decrypt_encrypt key _ combined, later,
        Bytes.xor_xor (Nat.le_of_eq same.symm)]

/-! ## Messages -/

variable {vector : Bytes} (length : vector.length = cipher.blockSize) (message : Bytes)
include length

theorem length_of_mem_encrypted : ∀ block ∈ cipher.chain (cipher.expand key) vector
      ((fill cipher.blockSize message).chunks cipher.blockSize), block.length = cipher.blockSize :=
  length_of_mem_chain invertible key length fun _ => Bytes.length_of_mem_chunks

theorem chunks_encryptMessage :
    (cipher.encryptMessage key vector message).chunks cipher.blockSize =
      cipher.chain (cipher.expand key) vector
        ((fill cipher.blockSize message).chunks cipher.blockSize) :=
  Bytes.chunks_flatten invertible.positive (length_of_mem_encrypted invertible key length message)

/-- What is decrypted under the same key and vector is the message. -/
theorem decryptMessage?_encryptMessage :
    cipher.decryptMessage? key vector (cipher.encryptMessage key vector message) =
      some message := by
  have lengths : ∀ block ∈ (fill cipher.blockSize message).chunks cipher.blockSize,
      block.length = cipher.blockSize := fun _ => Bytes.length_of_mem_chunks
  rw [decryptMessage?, chunks_encryptMessage invertible key length message,
    unchain_chain invertible key length lengths,
    Bytes.flatten_chunks invertible.positive (length_fill invertible.positive message).1,
    unfill?_fill invertible.positive invertible.small]

theorem length_encryptMessage :
    (cipher.encryptMessage key vector message).length =
      (fill cipher.blockSize message).length := by
  have filled := Bytes.flatten_chunks invertible.positive
    (length_fill invertible.positive message).1
  have lengths := Bytes.length_flatten (length_of_mem_encrypted invertible key length message)
  have filledLength := congrArg List.length filled
  rw [Bytes.length_flatten fun _ => Bytes.length_of_mem_chunks] at filledLength
  rw [encryptMessage, lengths, length_chain, filledLength]

end

end BlockCipher

end ByteListing
