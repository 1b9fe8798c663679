import ByteListing.Cipher.Des
import ByteListing.Proofs.Cipher.Chaining

/-! # DES is undone

Octets are eight bits each and nothing else (`toBytes_ofBytes`, `ofBytes_toBytes`), and the
permutation behind the rounds puts every bit back to its place.  A round changes one half of a block
by something that depends on the other half only, so that with the halves exchanged the same round
takes the change back (`round_exchanged`).  Whatever the round keys are, the rounds are undone by
the same rounds in reverse order. -/
set_option autoImplicit false
namespace ByteListing.Des

/-! ## Bits and octets -/

theorem length_bits (count number : Nat) : (bits count number).length = count := by
  rw [bits, List.length_map, List.length_range]

theorem pieces_append {count : Nat} (positive : 0 < count) {piece : Bits}
    (length : piece.length = count) (rest : Bits) :
    pieces count (piece ++ rest) = piece :: pieces count rest := by
  have size : (piece ++ rest).length / count = rest.length / count + 1 := by
    rw [List.length_append, length, Nat.add_comm, Nat.add_div_right _ positive]
  rw [pieces, size, List.range_succ_eq_map, List.map_cons, List.map_map, Nat.zero_mul,
    List.drop_zero, List.take_left' length, pieces]
  refine congrArg _ (List.map_congr_left fun index _ => ?_)
  rw [Function.comp_apply, Nat.succ_mul, Nat.add_comm, ← List.drop_drop, List.drop_left' length]

theorem value_bits : ∀ number < 256, value (bits 8 number) = number := by
  decide +kernel

theorem bits_value {digits : Bits} (length : digits.length = 8) :
    bits 8 (UInt8.ofNat (value digits)).toNat = digits := by
  have all : ∀ a b c d e f g h : Bool,
      bits 8 (UInt8.ofNat (value [a, b, c, d, e, f, g, h])).toNat = [a, b, c, d, e, f, g, h] := by
    decide +kernel
  match digits, length with
  | [a, b, c, d, e, f, g, h], _ => exact all a b c d e f g h

theorem toBytes_append {piece : Bits} (length : piece.length = 8) (rest : Bits) :
    toBytes (piece ++ rest) = UInt8.ofNat (value piece) :: toBytes rest := by
  rw [toBytes, pieces_append (by decide) length, List.map_cons, toBytes]

theorem toBytes_ofBytes (data : Bytes) : toBytes (ofBytes data) = data := by
  induction data with
  | nil => rfl
  | cons byte rest inductionHypothesis =>
      rw [ofBytes, List.flatMap_cons, ← ofBytes, toBytes_append (length_bits 8 byte.toNat),
        inductionHypothesis, value_bits byte.toNat byte.toNat_lt, UInt8.ofNat_toNat]

theorem length_ofBytes (data : Bytes) : (ofBytes data).length = 8 * data.length := by
  induction data with
  | nil => rfl
  | cons byte rest inductionHypothesis =>
      rw [ofBytes, List.flatMap_cons, ← ofBytes, List.length_append, length_bits,
        inductionHypothesis, List.length_cons, Nat.mul_succ, Nat.add_comm]

theorem ofBytes_toBytes {size : Nat} {digits : Bits} (length : digits.length = 8 * size) :
    ofBytes (toBytes digits) = digits ∧ (toBytes digits).length = size := by
  induction size generalizing digits with
  | zero =>
      rw [List.length_eq_zero_iff.mp length]
      exact ⟨rfl, rfl⟩
  | succ size inductionHypothesis =>
      have first : (digits.take 8).length = 8 := by
        rw [List.length_take]
        omega
      have others : (digits.drop 8).length = 8 * size := by
        rw [List.length_drop]
        omega
      obtain ⟨same, count⟩ := inductionHypothesis others
      have written := toBytes_append first (digits.drop 8)
      rw [List.take_append_drop] at written
      rw [written]
      refine ⟨?_, by rw [List.length_cons, count]⟩
      rw [ofBytes, List.flatMap_cons, bits_value first, ← ofBytes, same, List.take_append_drop]

/-! ## Places -/

theorem length_select (places : List Nat) (digits : Bits) :
    (select places digits).length = places.length :=
  List.length_map ..

theorem select_all (digits : Bits) :
    (List.range digits.length).map (fun place => digits.getD place false) = digits := by
  refine List.ext_getElem (by simp) fun index _ inside => ?_
  rw [List.getElem_map, List.getElem_range, List.getD_eq_getElem?_getD,
    List.getElem?_eq_getElem inside, Option.getD_some]

/-- Bits are back in their places if every place leads to the one that its bit came from. -/
theorem select_select {places others : List Nat} {digits : Bits}
    (inside : ∀ place ∈ places, place - 1 < others.length)
    (back : places.map (fun place => others.getD (place - 1) 0 - 1) =
      List.range digits.length) : select places (select others digits) = digits := by
  have followed : select places (select others digits) =
      (places.map fun place => others.getD (place - 1) 0 - 1).map fun place =>
        digits.getD place false := by
    rw [List.map_map]
    refine List.map_congr_left fun place member => ?_
    have bound := inside place member
    simp only [select, List.getD_eq_getElem?_getD, List.getElem?_map,
      List.getElem?_eq_getElem bound, Option.map_some, Option.getD_some, Function.comp_apply]
  rw [followed, back, select_all]

theorem exit_entry {digits : Bits} (length : digits.length = 64) :
    select exit (select entry digits) = digits := by
  refine select_select (by decide) ?_
  rw [length]
  decide

theorem entry_exit {digits : Bits} (length : digits.length = 64) :
    select entry (select exit digits) = digits := by
  refine select_select (by decide) ?_
  rw [length]
  decide

/-! ## Rounds -/

theorem combine_combine {digits mask : Bits} (same : digits.length = mask.length) :
    combine (combine digits mask) mask = digits := by
  induction digits generalizing mask with
  | nil => rfl
  | cons digit rest inductionHypothesis =>
      cases mask with
      | nil => cases same
      | cons bit others =>
          have later := inductionHypothesis (Nat.succ.inj same)
          have undone : ((digit ^^ bit) ^^ bit) = digit := by
            rw [Bool.xor_assoc, Bool.xor_self, Bool.xor_false]
          simp only [combine, List.zipWith_cons_cons] at later ⊢
          rw [undone, later]

theorem length_change (key half : Bits) : (change key half).length = 32 :=
  length_select diffusion _

def exchanged (halves : Bits × Bits) : Bits × Bits := (halves.2, halves.1)

def Halves (halves : Bits × Bits) : Prop := halves.1.length = 32 ∧ halves.2.length = 32

theorem halves_round {halves : Bits × Bits} (split : Halves halves) (key : Bits) :
    Halves (round halves key) := by
  refine ⟨split.2, ?_⟩
  rw [round, combine, List.length_zipWith, length_change, split.1]
  rfl

theorem round_exchanged {halves : Bits × Bits} (split : Halves halves) (key : Bits) :
    round (exchanged (round halves key)) key = exchanged halves := by
  have undone := combine_combine (split.1.trans (length_change key halves.2).symm)
  exact Prod.ext rfl undone

/-- Rounds are taken back by the same rounds in reverse order. -/
theorem rounds_exchanged (keys : List Bits) {halves : Bits × Bits} (split : Halves halves) :
    Halves (keys.foldl round halves) ∧
      keys.reverse.foldl round (exchanged (keys.foldl round halves)) = exchanged halves := by
  induction keys generalizing halves with
  | nil => exact ⟨split, rfl⟩
  | cons key rest inductionHypothesis =>
      obtain ⟨later, undone⟩ := inductionHypothesis (halves_round split key)
      refine ⟨later, ?_⟩
      rw [List.foldl_cons, List.reverse_cons, List.foldl_append, undone]
      exact round_exchanged split key

/-! ## Blocks -/

theorem halves_of_length {digits : Bits} (length : digits.length = 64) :
    Halves (digits.take 32, digits.drop 32) := by
  rw [Halves, List.length_take, List.length_drop, length]
  exact ⟨rfl, rfl⟩

theorem crypt_reverse (keys : List Bits) {block : Bytes} (length : block.length = 8) :
    (crypt keys block).length = 8 ∧ crypt keys.reverse (crypt keys block) = block := by
  have octets : (ofBytes block).length = 64 := by rw [length_ofBytes, length]
  have split := halves_of_length (length_select entry (ofBytes block))
  rw [crypt]
  generalize entered : select entry (ofBytes block) = digits at split
  obtain ⟨leftRight, undone⟩ := rounds_exchanged keys split
  generalize keys.foldl round (digits.take 32, digits.drop 32) = halves at leftRight undone
  have whole : (halves.2 ++ halves.1).length = 64 := by
    rw [List.length_append, leftRight.1, leftRight.2]
  have left : (select exit (halves.2 ++ halves.1)).length = 8 * 8 := length_select exit _
  obtain ⟨same, size⟩ := ofBytes_toBytes left
  refine ⟨size, ?_⟩
  -- The halves were written in exchanged order, which is how they are read again.
  rw [crypt, same, entry_exit whole]
  simp only [List.take_left' leftRight.2, List.drop_left' leftRight.2]
  rw [exchanged] at undone
  rw [undone]
  simp only [exchanged, List.take_append_drop]
  rw [← entered, exit_entry octets, toBytes_ofBytes]

theorem crypt_of_reverse (keys : List Bits) {block : Bytes} (length : block.length = 8) :
    (crypt keys.reverse block).length = 8 ∧ crypt keys (crypt keys.reverse block) = block := by
  have undone := crypt_reverse keys.reverse length
  rwa [List.reverse_reverse] at undone

theorem invertible_cipher : cipher.Invertible where
  positive := Nat.succ_pos 7
  small := (by decide : 8 < 256)
  length_encrypt key _ length := (crypt_reverse (expand key) length).1
  decrypt_encrypt key _ length := (crypt_reverse (expand key) length).2

theorem invertible_triple : triple.Invertible where
  positive := Nat.succ_pos 7
  small := (by decide : 8 < 256)
  length_encrypt key block length := by
    have first := (crypt_reverse (triple.expand key).1 length).1
    have second := (crypt_of_reverse (triple.expand key).2.1 first).1
    exact (crypt_reverse (triple.expand key).2.2 second).1
  decrypt_encrypt key block length := by
    obtain ⟨first, firstUndone⟩ := crypt_reverse (triple.expand key).1 length
    obtain ⟨second, secondUndone⟩ := crypt_of_reverse (triple.expand key).2.1 first
    have thirdUndone := (crypt_reverse (triple.expand key).2.2 second).2
    simp only [triple] at firstUndone secondUndone thirdUndone ⊢
    rw [thirdUndone, secondUndone, firstUndone]

end ByteListing.Des
