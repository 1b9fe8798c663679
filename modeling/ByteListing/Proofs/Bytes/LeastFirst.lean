import Mathlib.Algebra.BigOperators.Ring.Finset
import ByteListing.Proofs.Bytes.Numbers

/-! # Numbers with their least significant group first

Where such a number ends and what it is, told by the octets at each position.  It ends with the
first octet that does not continue (`EndsAt`), and the search for the end finds exactly that octet,
as long as it may look so far (`splitGroups_eq_some_iff`).  The groups are worth powers of 128
(`weighted`).

A number may be written in more groups than it needs (`Writes`).  For every count of groups that is
large enough there is one way to write it (`writes_iff`). -/
set_option autoImplicit false
namespace ByteListing.Base128

/-! ## The end of a number -/

/-- The octet at position `last` is the first one that does not continue. -/
structure EndsAt (data : Bytes) (last : Nat) : Prop where
  goes : ∀ index < last, ∃ byte, data[index]? = some byte ∧ 128 ≤ byte.toNat
  ends : ∃ byte, data[last]? = some byte ∧ byte.toNat < 128

section

variable {data rest : Bytes} {byte : UInt8} {last limit : Nat}

theorem EndsAt.lt_length (ended : EndsAt data last) : last < data.length := by
  obtain ⟨byte, present, -⟩ := ended.ends
  exact (List.getElem?_eq_some_iff.mp present).1

theorem not_endsAt_nil : ¬ EndsAt [] last := by
  rintro ⟨-, byte, found, -⟩
  simp at found

theorem endsAt_zero_iff : EndsAt (byte :: rest) 0 ↔ byte.toNat < 128 := by
  constructor
  · rintro ⟨-, first, found, small⟩
    rw [List.getElem?_cons_zero] at found
    cases found
    exact small
  · intro small
    exact ⟨nofun, byte, List.getElem?_cons_zero, small⟩

theorem endsAt_succ_iff :
    EndsAt (byte :: rest) (last + 1) ↔ 128 ≤ byte.toNat ∧ EndsAt rest last := by
  constructor
  · rintro ⟨goes, ends⟩
    obtain ⟨first, found, large⟩ := goes 0 (Nat.succ_pos last)
    rw [List.getElem?_cons_zero] at found
    cases found
    refine ⟨large, fun index before => ?_, ?_⟩
    · have later := goes (index + 1) (Nat.succ_lt_succ before)
      rwa [List.getElem?_cons_succ] at later
    · rwa [List.getElem?_cons_succ] at ends
  · rintro ⟨large, goes, ends⟩
    refine ⟨fun index before => ?_, ?_⟩
    · cases index with
      | zero => exact ⟨byte, List.getElem?_cons_zero, large⟩
      | succ index =>
          rw [List.getElem?_cons_succ]
          exact goes index (Nat.lt_of_succ_lt_succ before)
    · rwa [List.getElem?_cons_succ]

theorem endsAt_take_iff (inside : last < limit) :
    EndsAt (data.take limit) last ↔ EndsAt data last := by
  have same : ∀ index ≤ last, (data.take limit)[index]? = data[index]? := by
    intro index before
    exact List.getElem?_take_of_lt (Nat.lt_of_le_of_lt before inside)
  constructor
  · rintro ⟨goes, ends⟩
    refine ⟨fun index before => ?_, ?_⟩
    · rw [← same index (Nat.le_of_lt before)]
      exact goes index before
    · rwa [← same last (Nat.le_refl last)]
  · rintro ⟨goes, ends⟩
    refine ⟨fun index before => ?_, ?_⟩
    · rw [same index (Nat.le_of_lt before)]
      exact goes index before
    · rwa [same last (Nat.le_refl last)]

theorem exists_endsAt_iff : (∃ last < limit, EndsAt data last) ↔
    ∃ index < limit, ∃ byte, data[index]? = some byte ∧ byte.toNat < 128 := by
  constructor
  · rintro ⟨last, inside, -, ends⟩
    exact ⟨last, inside, ends⟩
  · rintro ⟨index, inside, ends⟩
    induction index using Nat.strongRecOn with
    | ind index inductionHypothesis =>
        by_cases first : ∀ earlier < index, ∃ byte, data[earlier]? = some byte ∧ 128 ≤ byte.toNat
        · exact ⟨index, inside, first, ends⟩
        · -- An octet before it is there and does not continue either.
          push Not at first
          obtain ⟨earlier, before, large⟩ := first
          obtain ⟨byte, found, -⟩ := ends
          have bound := (List.getElem?_eq_some_iff.mp found).1
          have present : data[earlier]? = some data[earlier] :=
            List.getElem?_eq_getElem (Nat.lt_trans before bound)
          exact inductionHypothesis earlier before (Nat.lt_trans before inside)
            ⟨_, present, large _ present⟩

end

theorem splitGroups_eq_some_iff {limit : Nat} {data groups remaining : Bytes} :
    splitGroups limit data = some (groups, remaining) ↔
      ∃ last < limit, EndsAt data last ∧ groups = data.take (last + 1) ∧
        remaining = data.drop (last + 1) := by
  induction limit generalizing data groups with
  | zero =>
      constructor
      · intro found
        simp [splitGroups] at found
      · rintro ⟨last, inside, -⟩
        exact absurd inside (Nat.not_lt_zero last)
  | succ limit inductionHypothesis =>
      cases data with
      | nil =>
          constructor
          · intro found
            simp [splitGroups] at found
          · rintro ⟨last, -, ended, -⟩
            exact absurd ended not_endsAt_nil
      | cons byte rest =>
          rw [splitGroups]
          by_cases goes : continues byte = true
          · rw [if_pos goes, Option.map_eq_some_iff]
            have large := continues_iff.mp goes
            constructor
            · rintro ⟨⟨others, behind⟩, found, equal⟩
              obtain ⟨rfl, rfl⟩ := Prod.mk.inj equal
              obtain ⟨last, inside, ended, rfl, rfl⟩ := inductionHypothesis.mp found
              have later := endsAt_succ_iff.mpr ⟨large, ended⟩
              exact ⟨last + 1, Nat.succ_lt_succ inside, later, rfl, rfl⟩
            · rintro ⟨last, inside, ended, rfl, rfl⟩
              cases last with
              | zero =>
                  have small := endsAt_zero_iff.mp ended
                  omega
              | succ last =>
                  have later := (endsAt_succ_iff.mp ended).2
                  refine ⟨(rest.take (last + 1), rest.drop (last + 1)), ?_, rfl⟩
                  exact inductionHypothesis.mpr
                    ⟨last, Nat.lt_of_succ_lt_succ inside, later, rfl, rfl⟩
          · rw [if_neg goes]
            have small : byte.toNat < 128 := by
              rw [continues_iff] at goes
              exact Nat.lt_of_not_le goes
            constructor
            · intro found
              obtain ⟨rfl, rfl⟩ := Prod.mk.inj (Option.some.inj found)
              exact ⟨0, Nat.succ_pos limit, endsAt_zero_iff.mpr small, rfl, rfl⟩
            · rintro ⟨last, -, ended, rfl, rfl⟩
              cases last with
              | zero => rfl
              | succ last =>
                  have large := (endsAt_succ_iff.mp ended).1
                  omega

/-! ## The worth of groups -/

/-- What the low seven bits of the first octets are worth, the first ones the least. -/
def weighted (data : Bytes) (count : Nat) : Nat :=
  ∑ index ∈ Finset.range count, (data.getD index 0).toNat % 128 * 2 ^ (7 * index)

theorem weighted_succ (data : Bytes) (count : Nat) : weighted data (count + 1) =
    weighted data count + (data.getD count 0).toNat % 128 * 2 ^ (7 * count) :=
  Finset.sum_range_succ ..

theorem weighted_lt (data : Bytes) (count : Nat) : weighted data count < 2 ^ (7 * count) := by
  induction count with
  | zero => simp [weighted]
  | succ count inductionHypothesis =>
      have digitSmall : (data.getD count 0).toNat % 128 + 1 ≤ 128 := Nat.mod_lt _ (by decide)
      have scaled := Nat.mul_le_mul_right (2 ^ (7 * count)) digitSmall
      rw [Nat.succ_mul] at scaled
      have power : 2 ^ (7 * (count + 1)) = 128 * 2 ^ (7 * count) := by
        rw [Nat.mul_succ, Nat.pow_add, Nat.mul_comm]
      rw [weighted_succ, power]
      omega

theorem weighted_cons (byte : UInt8) (rest : Bytes) (count : Nat) :
    weighted (byte :: rest) (count + 1) = digit byte + 128 * weighted rest count := by
  have shifted : ∀ index, ((byte :: rest).getD (index + 1) 0).toNat % 128 * 2 ^ (7 * (index + 1)) =
      128 * ((rest.getD index 0).toNat % 128 * 2 ^ (7 * index)) := by
    intro index
    rw [List.getD_cons_succ, Nat.mul_succ, Nat.pow_add, Nat.mul_comm _ (2 ^ 7)]
    exact Nat.mul_left_comm ..
  rw [weighted, Finset.sum_range_succ', weighted, Finset.mul_sum]
  simp only [shifted, List.getD_cons_zero, digit, Nat.mul_zero, Nat.pow_zero, Nat.mul_one]
  exact Nat.add_comm ..

theorem leastFirst_take (data : Bytes) (count : Nat) :
    leastFirst (data.take count) = weighted data count := by
  induction count generalizing data with
  | zero => rfl
  | succ count inductionHypothesis =>
      cases data with
      | nil => simp [weighted, leastFirst]
      | cons byte rest =>
          rw [List.take_succ_cons, leastFirst, weighted_cons, inductionHypothesis]

theorem weighted_take {data : Bytes} {count limit : Nat} (inside : count ≤ limit) :
    weighted (data.take limit) count = weighted data count := by
  rw [← leastFirst_take, ← leastFirst_take, List.take_take, Nat.min_eq_left inside]

/-! ## What a reader makes of it -/

section

variable {limit last : Nat} {data groups remaining : Bytes}

theorem endsAt_of_splitGroups (found : splitGroups limit data = some (groups, remaining)) :
    ∃ last < limit, EndsAt data last ∧ leastFirst groups = weighted data (last + 1) ∧
      groups.length = last + 1 := by
  obtain ⟨last, inside, ended, rfl, -⟩ := splitGroups_eq_some_iff.mp found
  exact ⟨last, inside, ended, leastFirst_take data (last + 1),
    List.length_take_of_le ended.lt_length⟩

theorem splitGroups_of_endsAt (ended : EndsAt data last) (inside : last < limit) :
    ∃ groups remaining, splitGroups limit data = some (groups, remaining) ∧
      leastFirst groups = weighted data (last + 1) ∧ groups.length = last + 1 :=
  ⟨_, _, splitGroups_eq_some_iff.mpr ⟨last, inside, ended, rfl, rfl⟩,
    leastFirst_take data (last + 1), List.length_take_of_le ended.lt_length⟩

end

/-! ## All ways to write a number -/

/-- Octets that a number may be written in: they hold one number, which is this one. -/
structure Writes (octets : Bytes) (value : Nat) : Prop where
  terminated : Terminated octets
  worth : weighted octets octets.length = value

theorem Writes.leastFirst_eq {octets : Bytes} {value : Nat} (written : Writes octets value) :
    leastFirst octets = value := by
  rw [← written.worth, ← leastFirst_take, List.take_length]

theorem writes_groupsIn {more value : Nat} (room : value < 128 ^ (more + 1)) :
    Writes (groupsIn more value) value := by
  refine ⟨terminated_groupsIn room, ?_⟩
  rw [← leastFirst_take, List.take_length, leastFirst_groupsIn room]

theorem Terminated.eq_groupsIn {octets : Bytes} (terminated : Terminated octets) :
    ∃ more, leastFirst octets < 128 ^ (more + 1) ∧ octets = groupsIn more (leastFirst octets) := by
  induction terminated with
  | @last byte ends =>
      have small : byte.toNat < 128 := by
        rw [Bool.eq_false_iff, Ne, continues_iff] at ends
        exact Nat.lt_of_not_le ends
      have value : leastFirst [byte] = byte.toNat := by
        simp only [leastFirst, digit]
        omega
      rw [value]
      refine ⟨0, small, ?_⟩
      rw [groupsIn, UInt8.ofNat_toNat]
  | @more byte rest goes _ inductionHypothesis =>
      obtain ⟨more, room, written⟩ := inductionHypothesis
      have large := continues_iff.mp goes
      have bound := byte.toNat_lt
      have low : leastFirst (byte :: rest) % 128 = byte.toNat % 128 := by
        simp only [leastFirst, digit]
        omega
      have high : leastFirst (byte :: rest) / 128 = leastFirst rest := by
        simp only [leastFirst, digit]
        omega
      have first : 128 + byte.toNat % 128 = byte.toNat := by omega
      refine ⟨more + 1, ?_, ?_⟩
      · rw [Nat.pow_succ]
        exact Nat.lt_mul_of_div_lt (by rwa [high]) (by decide)
      · rw [groupsIn, low, high, first, UInt8.ofNat_toNat, ← written]

/-- For every count of groups that leaves room for a number there is one way to write it. -/
theorem writes_iff {octets : Bytes} {value : Nat} :
    Writes octets value ↔ ∃ more, value < 128 ^ (more + 1) ∧ octets = groupsIn more value := by
  constructor
  · intro written
    rw [← written.leastFirst_eq]
    exact written.terminated.eq_groupsIn
  · rintro ⟨more, room, rfl⟩
    exact writes_groupsIn room

end ByteListing.Base128
