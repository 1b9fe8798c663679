import ByteListing.Proofs.Bytes.Numbers

/-! # Pieces of one size

A byte string that is a whole number of pieces is the pieces one after the other, and pieces of
one size that were strung together are cut apart again.  Pieces of one size are told apart by
their values, so byte strings of whole pieces are told apart by the values of the pieces. -/
set_option autoImplicit false
namespace ByteListing.Bytes

theorem littleOctets_littleEndian (octets : Bytes) :
    littleOctets octets.length (littleEndian octets) = octets := by
  induction octets with
  | nil => rfl
  | cons byte rest inductionHypothesis =>
      have bound := byte.toNat_lt
      have low : UInt8.ofNat (byte.toNat + 256 * littleEndian rest) = byte := by
        refine UInt8.toNat_inj.mp ?_
        rw [UInt8.toNat_ofNat']
        omega
      have high : (byte.toNat + 256 * littleEndian rest) / 256 = littleEndian rest := by omega
      simp only [littleEndian, List.length_cons, littleOctets, low, high, inductionHypothesis]

theorem littleEndian_inj {first second : Bytes} (lengths : first.length = second.length)
    (same : littleEndian first = littleEndian second) : first = second := by
  rw [← littleOctets_littleEndian first, lengths, same, littleOctets_littleEndian]

theorem bigEndian_eq (octets : Bytes) : bigEndian octets = littleEndian octets.reverse := by
  rw [bigEndian, List.foldl_eq_foldr_reverse]
  generalize octets.reverse = reversed
  induction reversed with
  | nil => rfl
  | cons byte rest inductionHypothesis =>
      simp only [List.foldr_cons, littleEndian, inductionHypothesis]
      omega

theorem bigEndian_inj {first second : Bytes} (lengths : first.length = second.length)
    (same : bigEndian first = bigEndian second) : first = second := by
  rw [bigEndian_eq, bigEndian_eq] at same
  refine List.reverse_inj.mp (littleEndian_inj ?_ same)
  rw [List.length_reverse, List.length_reverse, lengths]

theorem bigEndian_lt (octets : Bytes) : bigEndian octets < 256 ^ octets.length := by
  rw [bigEndian_eq, ← List.length_reverse]
  exact littleEndian_lt octets.reverse

/-! ## Cutting and joining -/

theorem chunks_append {size : Nat} (positive : 0 < size) {piece : Bytes}
    (length : piece.length = size) (rest : Bytes) :
    chunks size (piece ++ rest) = piece :: chunks size rest := by
  have enough : 0 < size ∧ size ≤ (piece ++ rest).length := by
    rw [List.length_append]
    omega
  rw [chunks, dif_pos enough, List.take_left' length, List.drop_left' length]

theorem chunks_flatMap {Item : Type} {size : Nat} (positive : 0 < size) {write : Item → Bytes}
    (length : ∀ item, (write item).length = size) (items : List Item) :
    chunks size (items.flatMap write) = items.map write := by
  induction items with
  | nil =>
      have short : ¬ (0 < size ∧ size ≤ ([] : Bytes).length) := by
        rw [List.length_nil]
        omega
      rw [List.flatMap_nil, chunks, dif_neg short]
      rfl
  | cons item rest inductionHypothesis =>
      rw [List.flatMap_cons, chunks_append positive (length item), inductionHypothesis]
      rfl

theorem length_of_mem_chunks {size : Nat} {data piece : Bytes} (member : piece ∈ chunks size data) :
    piece.length = size := by
  fun_induction chunks size data with
  | case1 data enough inductionHypothesis =>
      rcases List.mem_cons.mp member with rfl | later
      · exact List.length_take_of_le enough.2
      · exact inductionHypothesis later
  | case2 data short => cases member

theorem length_chunks {size : Nat} (positive : 0 < size) (data : Bytes) :
    (chunks size data).length = data.length / size := by
  fun_induction chunks size data with
  | case1 data enough inductionHypothesis =>
      rw [List.length_cons, inductionHypothesis, List.length_drop,
        Nat.div_eq_sub_div positive enough.2]
  | case2 data short =>
      have less : data.length < size := by omega
      rw [List.length_nil, Nat.div_eq_of_lt less]

theorem flatten_chunks {size : Nat} (positive : 0 < size) {data : Bytes}
    (whole : data.length % size = 0) : (chunks size data).flatten = data := by
  fun_induction chunks size data with
  | case1 data enough inductionHypothesis =>
      have restWhole : (data.drop size).length % size = 0 := by
        rw [List.length_drop, ← Nat.mod_eq_sub_mod enough.2]
        exact whole
      rw [List.flatten_cons, inductionHypothesis restWhole, List.take_append_drop]
  | case2 data short =>
      have less : data.length < size := by omega
      rw [Nat.mod_eq_of_lt less] at whole
      rw [List.length_eq_zero_iff.mp whole]
      rfl

theorem map_inj_on {Item Value : Type} {read : Item → Value} {first second : List Item}
    (injective : ∀ item ∈ first, ∀ other ∈ second, read item = read other → item = other)
    (same : first.map read = second.map read) : first = second := by
  induction first generalizing second with
  | nil => exact (List.map_eq_nil_iff.mp same.symm).symm
  | cons item rest inductionHypothesis =>
      cases second with
      | nil => cases same
      | cons other others =>
          obtain ⟨values, later⟩ := List.cons.inj same
          have here := injective item (List.mem_cons_self ..) other (List.mem_cons_self ..) values
          have following := inductionHypothesis (fun found member another otherMember =>
            injective found (List.mem_cons_of_mem _ member) another
              (List.mem_cons_of_mem _ otherMember)) later
          rw [here, following]

theorem eq_of_chunks {Value : Type} {size : Nat} (positive : 0 < size) {read : Bytes → Value}
    (injective : ∀ first second : Bytes, first.length = size → second.length = size →
      read first = read second → first = second)
    {first second : Bytes} (whole : first.length % size = 0)
    (otherWhole : second.length % size = 0)
    (same : (chunks size first).map read = (chunks size second).map read) : first = second := by
  have pieces : chunks size first = chunks size second := by
    refine map_inj_on ?_ same
    intro piece member other otherMember
    exact injective piece other (length_of_mem_chunks member) (length_of_mem_chunks otherMember)
  rw [← flatten_chunks positive whole, pieces, flatten_chunks positive otherWhole]

end ByteListing.Bytes
