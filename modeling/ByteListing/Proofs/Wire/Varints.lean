import ByteListing.Proofs.Bytes.LeastFirst
import ByteListing.Proofs.Wire.Scalars

/-! # The numbers in varints

A varint is told by its octets alone: it ends with the first octet that does not continue, which
has to be one of the first ten, and its value is what its groups are worth modulo `2 ^ 64`.  Ten
groups have room for 70 bits; the tenth is worth `2 ^ 63` and more, so that nothing is cut off
unless it is larger than one (`weighted_lt_iff`).

Zig-zag pairs the values of 64 bits with the signed numbers of 64 bits. -/
set_option autoImplicit false
namespace ByteListing.Wire.Varint

open Base128 (EndsAt Writes groupsIn weighted)

section

variable {data : Bytes} {last : Nat}

theorem decode?_eq_some_iff {value length : Nat} :
    decode? data = some (value, length) ↔ ∃ last < maxLength, EndsAt data last ∧
      value = weighted data (last + 1) % 2 ^ 64 ∧ length = last + 1 := by
  rw [decode?, Option.map_eq_some_iff]
  constructor
  · rintro ⟨⟨groups, remaining⟩, found, equal⟩
    obtain ⟨last, inside, ended, worth, count⟩ := Base128.endsAt_of_splitGroups found
    obtain ⟨rfl, rfl⟩ := Prod.mk.inj equal
    refine ⟨last, inside, ended, ?_, count⟩
    rw [worth]
    rfl
  · rintro ⟨last, inside, ended, rfl, rfl⟩
    obtain ⟨groups, remaining, found, worth, count⟩ := Base128.splitGroups_of_endsAt ended inside
    refine ⟨(groups, remaining), found, ?_⟩
    dsimp only
    rw [worth, count]
    rfl

theorem decode_eq_ok_iff {result : Nat × Nat} :
    decode data = .ok result ↔ decode? data = some result := by
  rw [decode]
  cases decode? data <;> simp

theorem decode_eq_error {fault : Fault} (failed : decode data = .error fault) :
    fault = .malformedVarint (min 10 data.length) := by
  rw [decode] at failed
  split at failed
  · cases failed
  · exact (Except.error.inj failed).symm

/-- Nothing is cut off unless there is a tenth group and it is larger than one. -/
theorem weighted_lt_iff (ended : EndsAt data last) (inside : last < 10) :
    weighted data (last + 1) < 2 ^ 64 ↔
      ¬ (last = 9 ∧ ∃ byte, data[9]? = some byte ∧ 1 < byte.toNat) := by
  by_cases full : last = 9
  · subst full
    obtain ⟨byte, present, small⟩ := ended.ends
    have front := Base128.weighted_lt data 9
    have whole : weighted data 10 = weighted data 9 + byte.toNat * 2 ^ 63 := by
      rw [Base128.weighted_succ, List.getD_eq_getElem?_getD, present, Option.getD_some,
        Nat.mod_eq_of_lt small]
    rw [whole, present]
    simp only [Option.some.injEq, exists_eq_left', true_and]
    omega
  · have few := Base128.weighted_lt data (last + 1)
    have power : 2 ^ (7 * (last + 1)) ≤ 2 ^ 64 := Nat.pow_le_pow_right (by decide) (by omega)
    have kept : weighted data (last + 1) < 2 ^ 64 := Nat.lt_of_lt_of_le few power
    exact iff_of_true kept fun tenth => full tenth.1

end

theorem decode_append {octets : Bytes} {value : Nat} (written : Writes octets value)
    (short : octets.length ≤ 10) (small : value < 2 ^ 64) (rest : Bytes) :
    decode (octets ++ rest) = .ok (value, octets.length) := by
  have encoded : Octets value octets := by
    refine ⟨written.terminated, short, ?_⟩
    rw [written.leastFirst_eq]
    exact Nat.mod_eq_of_lt small
  rw [decode_eq_ok_iff, decode?_append encoded]

/-! ## Zig-zag -/

theorem fold_unfold (value : Nat) : fold (unfold value) = value := by
  unfold fold unfold
  split <;> split <;> omega

theorem unfold_bounds {value : Nat} (small : value < 2 ^ 64) :
    -2 ^ 63 ≤ unfold value ∧ unfold value < 2 ^ 63 := by
  unfold unfold
  split <;> omega

/-- Reading a varint is exact.  It succeeds if one of the first ten octets does not continue, with
the length and the value that these octets have, and 64 bits hold all of it unless the tenth octet
exceeds one.  A number of 64 bits is read back from every way to write it in at most ten octets,
whatever follows; these are its groups and so many empty ones behind them.  A failure names the
position at which the number should have ended.  Signed numbers of 64 bits are unfolded from what
they were folded into, and no two values unfold alike. -/
theorem varints_are_exact :
    (∀ data, (∃ result, decode data = .ok result) ↔
      ∃ index < 10, ∃ byte, data[index]? = some byte ∧ byte.toNat < 128) ∧
    (∀ data value length, decode data = .ok (value, length) ↔ ∃ last < 10, EndsAt data last ∧
      value = weighted data (last + 1) % 2 ^ 64 ∧ length = last + 1) ∧
    (∀ data last, EndsAt data last → last < 10 → (weighted data (last + 1) < 2 ^ 64 ↔
      ¬ (last = 9 ∧ ∃ byte, data[9]? = some byte ∧ 1 < byte.toNat))) ∧
    (∀ octets value rest, Writes octets value → octets.length ≤ 10 → value < 2 ^ 64 →
      decode (octets ++ rest) = .ok (value, octets.length)) ∧
    (∀ octets value, Writes octets value ↔
      ∃ more, value < 128 ^ (more + 1) ∧ octets = groupsIn more value) ∧
    (∀ data fault, decode data = .error fault →
      fault = .malformedVarint (min 10 data.length)) ∧
    (∀ number : Int, -2 ^ 63 ≤ number → number < 2 ^ 63 →
      fold number < 2 ^ 64 ∧ unfold (fold number) = number) ∧
    (∀ value, value < 2 ^ 64 →
      -2 ^ 63 ≤ unfold value ∧ unfold value < 2 ^ 63 ∧ fold (unfold value) = value) ∧
    ∀ value other, value < 2 ^ 64 → other < 2 ^ 64 → unfold value = unfold other →
      value = other := by
  have read : ∀ data value length, decode data = .ok (value, length) ↔
      ∃ last < 10, EndsAt data last ∧ value = weighted data (last + 1) % 2 ^ 64 ∧
        length = last + 1 := by
    intro data value length
    rw [decode_eq_ok_iff, decode?_eq_some_iff]
    rfl
  refine ⟨?_, read, ?_, ?_, ?_, ?_, ?_, ?_, ?_⟩
  · intro data
    rw [← Base128.exists_endsAt_iff]
    constructor
    · rintro ⟨⟨value, length⟩, success⟩
      obtain ⟨last, inside, ended, -⟩ := (read data value length).mp success
      exact ⟨last, inside, ended⟩
    · rintro ⟨last, inside, ended⟩
      exact ⟨_, (read data _ _).mpr ⟨last, inside, ended, rfl, rfl⟩⟩
  · intro data last ended inside
    exact weighted_lt_iff ended inside
  · intro octets value rest written short small
    exact decode_append written short small rest
  · intro octets value
    exact Base128.writes_iff
  · intro data fault failed
    exact decode_eq_error failed
  · intro number least bound
    exact ⟨fold_lt least bound, unfold_fold number⟩
  · intro value small
    obtain ⟨least, bound⟩ := unfold_bounds small
    exact ⟨least, bound, fold_unfold value⟩
  · intro value other _ _ same
    have folded := congrArg fold same
    rwa [fold_unfold, fold_unfold] at folded

/-- Ten octets of which the last is cut off, a number padded to ten octets, two octets that both
continue, the least signed number, and two values side by side. -/
theorem varints_of_ten_octets :
    decode (List.replicate 9 0x80 ++ [0x03]) = .ok (2 ^ 63, 10) ∧
    ¬ weighted (List.replicate 9 0x80 ++ [0x03]) 10 < 2 ^ 64 ∧
    decode [0xAC, 0x82, 0x80, 0x80, 0x80, 0x80, 0x80, 0x80, 0x80, 0x00, 0xFF] = .ok (300, 10) ∧
    (∃ fault, decode [0x80, 0x80] = .error fault ∧ fault = .malformedVarint 2) ∧
    unfold (fold (-2 ^ 63)) = -2 ^ 63 ∧ unfold 2 ≠ unfold 3 := by
  obtain ⟨-, read, kept, written, forms, failed, folded, -, told⟩ := varints_are_exact
  have cut : decode (List.replicate 9 0x80 ++ [0x03]) = .ok (2 ^ 63, 10) := rfl
  obtain ⟨last, inside, ended, -, length⟩ := (read _ _ _).mp cut
  obtain rfl : last = 9 := (Nat.succ.inj length).symm
  refine ⟨cut, ?_, ?_, ?_, ?_, ?_⟩
  · intro small
    exact (kept _ 9 ended inside).mp small ⟨rfl, 0x03, rfl, by decide⟩
  · exact written (groupsIn 9 300) 300 [0xFF] ((forms _ _).mpr ⟨9, by decide, rfl⟩) (by decide)
      (by decide)
  · exact ⟨_, rfl, failed [0x80, 0x80] _ rfl⟩
  · exact (folded (-2 ^ 63) (by decide) (by decide)).2
  · intro same
    exact absurd (told 2 3 (by decide) (by decide) same) (by decide)

end ByteListing.Wire.Varint
