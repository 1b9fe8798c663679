import ByteListing.Cipher.Aes
import ByteListing.Proofs.Cipher.Chaining

/-! # AES is undone

Each part of a round is undone by its counterpart: the substitution because its table leads back
from every entry (`restore_substitute`), the moved rows because their places do, and the mixed
columns because doubling distributes over exclusive or (`double_xor`), so that what an octet adds to
the octets of a column can be followed for one octet at a time.  Round keys that are added once
more vanish, whatever they are, so the rounds are undone from the last to the first. -/
set_option autoImplicit false
namespace ByteListing.Aes

theorem forall_byte {property : UInt8 → Prop}
    (all : ∀ value < 256, property (UInt8.ofNat value)) (byte : UInt8) : property byte := by
  have found := all byte.toNat byte.toNat_lt
  rwa [UInt8.ofNat_toNat] at found

/-! ## Octets -/

theorem getD_eq_headD (table : Array UInt8) (index : Nat) :
    table.getD index 0 = (table.toList.drop index).headD 0 := by
  rw [Array.getD_eq_getD_getElem?, ← Array.getElem?_toList, List.headD_eq_head?_getD,
    List.head?_drop]

theorem getD_getD {table inverse : Array UInt8} (size : table.size = 256)
    (undone : table.toList.map (fun entry => (inverse.toList.drop entry.toNat).headD 0) =
      (List.range 256).map UInt8.ofNat) (byte : UInt8) :
    inverse.getD (table.getD byte.toNat 0).toNat 0 = byte := by
  have inside : byte.toNat < table.toList.length := by
    rw [Array.length_toList, size]
    exact byte.toNat_lt
  have looked := congrArg (·[byte.toNat]?) undone
  simp only [List.getElem?_map, List.getElem?_range byte.toNat_lt,
    List.getElem?_eq_getElem inside, Option.map_some, UInt8.ofNat_toNat] at looked
  rw [getD_eq_headD, Array.getD_eq_getD_getElem?, ← Array.getElem?_toList,
    List.getElem?_eq_getElem inside]
  exact Option.some.inj looked

theorem restore_substitute (byte : UInt8) : restore (substitute byte) = byte := by
  -- Both tables are walked along as lists: the kernel is slow at indexing arrays.
  have size : substitution.size = 256 := by decide +kernel
  have undone : substitution.toList.map
      (fun entry => (inverseSubstitution.toList.drop entry.toNat).headD 0) =
        (List.range 256).map UInt8.ofNat := by decide +kernel
  exact getD_getD size undone byte

def reduction (lost : Bool) : UInt8 := if lost then 0x1B else 0

theorem reduction_xor (first second : Bool) :
    reduction (first ^^ second) = reduction first ^^^ reduction second := by
  cases first <;> cases second <;> rfl

theorem double_eq (byte : UInt8) :
    double byte = byte <<< 1 ^^^ reduction byte.toBitVec.msb := by
  revert byte
  exact forall_byte (by decide +kernel)

theorem double_xor (first second : UInt8) :
    double (first ^^^ second) = double first ^^^ double second := by
  rw [double_eq, double_eq, double_eq, UInt8.shiftLeft_xor, UInt8.toBitVec_xor, BitVec.msb_xor,
    reduction_xor]
  ac_rfl

/-! ## Columns -/

/-- The octets of a mixed column, each for the column turned by as many places. -/
def mixed (a b c d : UInt8) : UInt8 := double a ^^^ (double b ^^^ b) ^^^ c ^^^ d

def unmixed (a b c d : UInt8) : UInt8 := times14 a ^^^ times11 b ^^^ times13 c ^^^ times9 d

theorem mixColumn_eq (a b c d : UInt8) :
    mixColumn [a, b, c, d] = [mixed a b c d, mixed b c d a, mixed c d a b, mixed d a b c] := by
  simp only [mixColumn, mixed, List.cons.injEq, and_true]
  refine ⟨trivial, ?_, ?_, ?_⟩ <;> ac_rfl

theorem unmixColumn_eq (a b c d : UInt8) :
    unmixColumn [a, b, c, d] =
      [unmixed a b c d, unmixed b c d a, unmixed c d a b, unmixed d a b c] := by
  simp only [unmixColumn, unmixed, List.cons.injEq, and_true]
  refine ⟨trivial, ?_, ?_, ?_⟩ <;> ac_rfl

theorem unmixed_xor (a b c d a' b' c' d' : UInt8) :
    unmixed (a ^^^ a') (b ^^^ b') (c ^^^ c') (d ^^^ d') =
      unmixed a b c d ^^^ unmixed a' b' c' d' := by
  simp only [unmixed, times9, times11, times13, times14, double_xor]
  ac_rfl

/-- What an octet adds to a mixed column is unmixed to that octet in its own place, and to nothing
in the three others. -/
theorem unmixed_alone : ∀ byte,
    unmixed (double byte) byte byte (double byte ^^^ byte) = byte ∧
    unmixed (double byte ^^^ byte) (double byte) byte byte = 0 ∧
    unmixed byte (double byte ^^^ byte) (double byte) byte = 0 ∧
    unmixed byte byte (double byte ^^^ byte) (double byte) = 0 :=
  forall_byte (by decide +kernel)

theorem unmixed_mixed (a b c d : UInt8) :
    unmixed (mixed a b c d) (mixed b c d a) (mixed c d a b) (mixed d a b c) = a := by
  have rows := mixColumn_eq a b c d
  simp only [mixColumn, List.cons.injEq, and_true] at rows
  obtain ⟨first, second, third, fourth⟩ := rows
  rw [← first, ← second, ← third, ← fourth, unmixed_xor, unmixed_xor, unmixed_xor,
    (unmixed_alone a).1, (unmixed_alone b).2.1, (unmixed_alone c).2.2.1, (unmixed_alone d).2.2.2,
    UInt8.xor_zero, UInt8.xor_zero, UInt8.xor_zero]

theorem exists_column {column : Bytes} (length : column.length = 4) :
    ∃ a b c d, column = [a, b, c, d] := by
  match column, length with
  | [a, b, c, d], _ => exact ⟨a, b, c, d, rfl⟩

theorem unmixColumn_mixColumn {column : Bytes} (length : column.length = 4) :
    unmixColumn (mixColumn column) = column := by
  obtain ⟨a, b, c, d, rfl⟩ := exists_column length
  rw [mixColumn_eq, unmixColumn_eq, unmixed_mixed, unmixed_mixed, unmixed_mixed, unmixed_mixed]

/-! ## Blocks -/

theorem unshiftRows_shiftRows {block : Bytes} (length : block.length = 16) :
    unshiftRows (shiftRows block) = block := by
  have places : ∀ index < 16, ((index + 12 * (index % 4)) % 16 +
      4 * ((index + 12 * (index % 4)) % 16 % 4)) % 16 = index := by decide
  refine List.ext_getElem (by simp [unshiftRows, length]) fun index bound inside => ?_
  rw [length] at inside
  have moved : (index + 12 * (index % 4)) % 16 < 16 := Nat.mod_lt _ (by decide)
  simp only [unshiftRows, shiftRows, List.getElem_map, List.getElem_range,
    List.getD_eq_getElem?_getD, List.getElem?_map, List.getElem?_range moved, Option.map_some,
    Option.getD_some, places index inside]
  rw [List.getElem?_eq_getElem (by omega), Option.getD_some]

theorem length_mixColumn {column : Bytes} (length : column.length = 4) :
    (mixColumn column).length = 4 := by
  obtain ⟨a, b, c, d, rfl⟩ := exists_column length
  rfl

theorem length_of_mem_mixed {block column : Bytes}
    (member : column ∈ (block.chunks 4).map mixColumn) : column.length = 4 := by
  obtain ⟨piece, listed, rfl⟩ := List.mem_map.mp member
  exact length_mixColumn (Bytes.length_of_mem_chunks listed)

theorem length_mixColumns {block : Bytes} (whole : block.length % 4 = 0) :
    (mixColumns block).length = block.length := by
  have mixedLengths : ∀ column ∈ (block.chunks 4).map mixColumn, column.length = 4 :=
    fun _ => length_of_mem_mixed
  have lengths : ∀ column ∈ block.chunks 4, column.length = 4 :=
    fun _ => Bytes.length_of_mem_chunks
  rw [mixColumns, List.flatMap_def, Bytes.length_flatten mixedLengths, List.length_map,
    ← Bytes.length_flatten lengths, Bytes.flatten_chunks (by decide) whole]

theorem unmixColumns_mixColumns {block : Bytes} (whole : block.length % 4 = 0) :
    unmixColumns (mixColumns block) = block := by
  have undone : ((block.chunks 4).map mixColumn).map unmixColumn = block.chunks 4 := by
    rw [List.map_map]
    refine (List.map_congr_left fun column member => ?_).trans (List.map_id _)
    exact unmixColumn_mixColumn (Bytes.length_of_mem_chunks member)
  simp only [unmixColumns, mixColumns, List.flatMap_def]
  rw [Bytes.chunks_flatten (by decide) fun _ => length_of_mem_mixed, undone,
    Bytes.flatten_chunks (by decide) whole]

theorem length_shiftRows (block : Bytes) : (shiftRows block).length = 16 := by
  rw [shiftRows, List.length_map, List.length_range]

theorem map_restore_substitute (block : Bytes) : (block.map substitute).map restore = block := by
  induction block with
  | nil => rfl
  | cons byte rest inductionHypothesis =>
      rw [List.map_cons, List.map_cons, restore_substitute, inductionHypothesis]

/-! ## Rounds -/

theorem unshiftRows_shifted {block : Bytes} (length : block.length = 16) :
    (unshiftRows (shiftRows (block.map substitute))).map restore = block := by
  rw [unshiftRows_shiftRows (by rw [List.length_map, length]), map_restore_substitute]

theorem rounds_undone {keys : List Bytes} (lengths : ∀ key ∈ keys, key.length = 16)
    {block : Bytes} (length : block.length = 16) :
    (rounds keys block).length = 16 ∧ unrounds keys (rounds keys block) = block := by
  fun_induction rounds keys block with
  | case1 block => exact ⟨length, rfl⟩
  | case2 key block =>
      have keyLength := lengths key List.mem_cons_self
      have shifted := length_shiftRows (block.map substitute)
      refine ⟨?_, ?_⟩
      · rw [Bytes.length_xor (keyLength.trans shifted.symm), shifted]
      · rw [unrounds, Bytes.xor_xor (by omega), unshiftRows_shifted length]
  | case3 key rest block several inductionHypothesis =>
      have keyLength := lengths key List.mem_cons_self
      have shifted := length_shiftRows (block.map substitute)
      have whole : (shiftRows (block.map substitute)).length % 4 = 0 := by rw [shifted]
      have mixedLength := (length_mixColumns whole).trans shifted
      have added := Bytes.length_xor (keyLength.trans mixedLength.symm)
      obtain ⟨laterLength, later⟩ := inductionHypothesis
        (fun other member => lengths other (List.mem_cons_of_mem _ member))
        (added.trans mixedLength)
      refine ⟨laterLength, ?_⟩
      rw [unrounds, later, Bytes.xor_xor (by omega), unmixColumns_mixColumns whole,
        unshiftRows_shifted length]
      exact several

theorem decrypt_encrypt {keys : List Bytes} (lengths : ∀ key ∈ keys, key.length = 16)
    {block : Bytes} (length : block.length = 16) :
    (encrypt keys block).length = 16 ∧ decrypt keys (encrypt keys block) = block := by
  cases keys with
  | nil => exact ⟨length, rfl⟩
  | cons key rest =>
      have keyLength := lengths key List.mem_cons_self
      have added := Bytes.length_xor (keyLength.trans length.symm)
      obtain ⟨encrypted, undone⟩ := rounds_undone
        (fun other member => lengths other (List.mem_cons_of_mem _ member)) (added.trans length)
      refine ⟨encrypted, ?_⟩
      rw [encrypt, decrypt, undone, Bytes.xor_xor (by omega)]

theorem invertible_cipher (keyWords : Nat) : (cipher keyWords).Invertible where
  positive := Nat.succ_pos 15
  small := (by decide : 16 < 256)
  length_encrypt _ _ length :=
    (decrypt_encrypt (fun _ => Bytes.length_of_mem_chunks) length).1
  decrypt_encrypt _ _ length :=
    (decrypt_encrypt (fun _ => Bytes.length_of_mem_chunks) length).2

end ByteListing.Aes
