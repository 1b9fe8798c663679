import Mathlib.Data.FinEnum
import Mathlib.Data.Set.Finite.List
import ByteListing.Proofs.Cipher.Chaining

/-! # What is decrypted

Whole blocks are decrypted to as many octets (`length_opened`), whether or not they were encrypted
under the same key: a cipher that undoes what it does to blocks gives a block for every block, since
there are only finitely many of them (`length_decrypt`).  There is a message in these octets exactly
if they end with one octet to a block of octets that hold their own count
(`decryptMessage?_eq_some_iff`). -/
set_option autoImplicit false
namespace ByteListing.BlockCipher

/-! ## Blocks -/

section

variable {cipher : BlockCipher} (invertible : cipher.Invertible) (key : Bytes)
include invertible

theorem exists_encrypted {block : Bytes} (length : block.length = cipher.blockSize) :
    ∃ source : Bytes, source.length = cipher.blockSize ∧
      cipher.encrypt (cipher.expand key) source = block := by
  have finite : {block : Bytes | block.length = cipher.blockSize}.Finite :=
    List.finite_length_eq UInt8 cipher.blockSize
  have into : Set.MapsTo (cipher.encrypt (cipher.expand key))
      {block : Bytes | block.length = cipher.blockSize}
      {block : Bytes | block.length = cipher.blockSize} := fun source sourceLength =>
    invertible.length_encrypt key source sourceLength
  have distinct : Set.InjOn (cipher.encrypt (cipher.expand key))
      {block : Bytes | block.length = cipher.blockSize} := by
    intro first firstLength second secondLength same
    rw [← invertible.decrypt_encrypt key first firstLength, same,
      invertible.decrypt_encrypt key second secondLength]
  exact ((finite.injOn_iff_bijOn_of_mapsTo into).mp distinct).surjOn length

theorem length_decrypt {block : Bytes} (length : block.length = cipher.blockSize) :
    (cipher.decrypt (cipher.expand key) block).length = cipher.blockSize := by
  obtain ⟨source, sourceLength, rfl⟩ := exists_encrypted invertible key length
  rw [invertible.decrypt_encrypt key source sourceLength, sourceLength]

theorem length_of_mem_unchain {previous : Bytes} {blocks : List Bytes}
    (length : previous.length = cipher.blockSize)
    (lengths : ∀ block ∈ blocks, block.length = cipher.blockSize) :
    ∀ block ∈ cipher.unchain (cipher.expand key) previous blocks,
      block.length = cipher.blockSize := by
  induction blocks generalizing previous with
  | nil => nofun
  | cons block rest inductionHypothesis =>
      have blockLength := lengths block List.mem_cons_self
      have decrypted := length_decrypt invertible key blockLength
      have later := inductionHypothesis blockLength fun other member =>
        lengths other (List.mem_cons_of_mem _ member)
      intro other member
      rcases List.mem_cons.mp member with rfl | inside
      · rw [Bytes.length_xor (length.trans decrypted.symm), decrypted]
      · exact later other inside

omit invertible in
theorem length_unchain (previous : Bytes) (blocks : List Bytes) :
    (cipher.unchain (cipher.expand key) previous blocks).length = blocks.length := by
  induction blocks generalizing previous with
  | nil => rfl
  | cons block rest inductionHypothesis =>
      rw [unchain, List.length_cons, inductionHypothesis, List.length_cons]

end

/-! ## Messages -/

theorem unfill?_eq_some_iff {size : Nat} (small : size < 256) {filled message : Bytes} :
    unfill? size filled = some message ↔
      ∃ count, 0 < count ∧ count ≤ size ∧
        filled = message ++ List.replicate count (UInt8.ofNat count) := by
  constructor
  · intro success
    rw [unfill?] at success
    split at success
    · cases success
    · rename_i last _
      dsimp only at success
      split at success
      · rename_i held
        obtain ⟨someOctet, atMost, inside, behind⟩ := held
        have taken : (filled.take (filled.length - last.toNat)).length =
            filled.length - last.toNat := by
          rw [List.length_take]
          omega
        rw [taken] at behind
        obtain rfl := Option.some.inj success
        refine ⟨last.toNat, someOctet, atMost, ?_⟩
        rw [UInt8.ofNat_toNat, ← behind, List.take_append_drop]
      · cases success
  · rintro ⟨count, someOctet, atMost, rfl⟩
    exact unfill?_append someOctet atMost small message

/-- The octets that whole blocks are decrypted to: a message and what it was filled up with, if the
key is the right one. -/
def opened (cipher : BlockCipher) (key vector data : Bytes) : Bytes :=
  (cipher.unchain (cipher.expand key) vector (data.chunks cipher.blockSize)).flatten

section

variable {cipher : BlockCipher} (invertible : cipher.Invertible) (key : Bytes)
  {vector data : Bytes}
include invertible

theorem length_opened (length : vector.length = cipher.blockSize)
    (whole : data.length % cipher.blockSize = 0) :
    (cipher.opened key vector data).length = data.length := by
  have lengths : ∀ block ∈ data.chunks cipher.blockSize, block.length = cipher.blockSize :=
    fun _ => Bytes.length_of_mem_chunks
  have joined := congrArg List.length (Bytes.flatten_chunks invertible.positive whole)
  rw [Bytes.length_flatten lengths] at joined
  rw [opened, Bytes.length_flatten (length_of_mem_unchain invertible key length lengths),
    length_unchain, joined]

theorem decryptMessage?_eq_some_iff {message : Bytes} :
    cipher.decryptMessage? key vector data = some message ↔
      ∃ count, 0 < count ∧ count ≤ cipher.blockSize ∧
        cipher.opened key vector data = message ++ List.replicate count (UInt8.ofNat count) :=
  unfill?_eq_some_iff invertible.small

theorem length_of_decryptMessage? (length : vector.length = cipher.blockSize)
    (whole : data.length % cipher.blockSize = 0) {message : Bytes}
    (success : cipher.decryptMessage? key vector data = some message) :
    data.length - cipher.blockSize ≤ message.length ∧ message.length < data.length := by
  obtain ⟨count, someOctet, atMost, split⟩ :=
    (decryptMessage?_eq_some_iff invertible key).mp success
  have lengths := congrArg List.length split
  rw [length_opened invertible key length whole, List.length_append, List.length_replicate]
    at lengths
  omega

end

end ByteListing.BlockCipher
