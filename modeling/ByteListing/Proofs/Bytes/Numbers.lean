import Mathlib.Algebra.Group.Nat.Defs
import ByteListing.Proofs.Bytes.Base128

/-! # Numbers written in octets

The writers that go with the readers of numbers.  `Bytes.littleOctets` writes a fixed number of
octets, `Base128.groupsIn` a fixed number of groups of seven bits, and `Base128.groups` as few of
them as a number needs; all put the least significant part first.  A number that is not too large
for its place is read back from each. -/
set_option autoImplicit false
namespace ByteListing

namespace Bytes

def littleOctets : (count value : Nat) → Bytes
  | 0, _ => []
  | count + 1, value => UInt8.ofNat value :: littleOctets count (value / 256)

@[simp] theorem length_littleOctets (count value : Nat) :
    (littleOctets count value).length = count := by
  induction count generalizing value with
  | zero => rfl
  | succ count inductionHypothesis =>
      simp only [littleOctets, List.length_cons, inductionHypothesis]

theorem littleEndian_lt (octets : Bytes) : littleEndian octets < 256 ^ octets.length := by
  induction octets with
  | nil => decide
  | cons byte rest inductionHypothesis =>
      have bound := byte.toNat_lt
      simp only [littleEndian, List.length_cons, Nat.pow_succ]
      omega

theorem littleEndian_littleOctets {count value : Nat} (small : value < 256 ^ count) :
    littleEndian (littleOctets count value) = value := by
  induction count generalizing value with
  | zero =>
      have noneLeft : value = 0 := by simpa using small
      rw [noneLeft]
      rfl
  | succ count inductionHypothesis =>
      have restSmall : value / 256 < 256 ^ count := by
        rw [Nat.pow_succ] at small
        exact Nat.div_lt_of_lt_mul (by omega)
      have split := Nat.mod_add_div value 256
      simp only [littleOctets, littleEndian, inductionHypothesis restSmall, UInt8.toNat_ofNat']
      omega

end Bytes

namespace Base128

def groups (value : Nat) : Bytes :=
  if value < 128 then [UInt8.ofNat value]
  else UInt8.ofNat (128 + value % 128) :: groups (value / 128)
termination_by value
decreasing_by omega

/-- A number in one group more than told, the last ones of which may be empty. -/
def groupsIn : (more value : Nat) → Bytes
  | 0, value => [UInt8.ofNat value]
  | more + 1, value => UInt8.ofNat (128 + value % 128) :: groupsIn more (value / 128)

theorem continues_iff {byte : UInt8} : continues byte = true ↔ 128 ≤ byte.toNat := by
  simp [continues, UInt8.le_iff_toNat_le]

theorem div_lt_of_lt_pow {value limit : Nat} (small : value < 128 ^ (limit + 1)) :
    value / 128 < 128 ^ limit := by
  rw [Nat.pow_succ] at small
  exact Nat.div_lt_of_lt_mul (by omega)

theorem terminated_groupsIn {more value : Nat} (room : value < 128 ^ (more + 1)) :
    Terminated (groupsIn more value) := by
  induction more generalizing value with
  | zero =>
      refine .last (Bool.eq_false_iff.mpr fun goes => ?_)
      have large := continues_iff.mp goes
      rw [UInt8.toNat_ofNat'] at large
      omega
  | succ more inductionHypothesis =>
      refine .more (continues_iff.mpr ?_) (inductionHypothesis (div_lt_of_lt_pow room))
      rw [UInt8.toNat_ofNat']
      omega

theorem leastFirst_groupsIn {more value : Nat} (room : value < 128 ^ (more + 1)) :
    leastFirst (groupsIn more value) = value := by
  induction more generalizing value with
  | zero =>
      simp only [groupsIn, leastFirst, digit, UInt8.toNat_ofNat']
      omega
  | succ more inductionHypothesis =>
      simp only [groupsIn, leastFirst, digit, UInt8.toNat_ofNat',
        inductionHypothesis (div_lt_of_lt_pow room)]
      omega

theorem exists_groupsIn (value : Nat) :
    ∃ more, value < 128 ^ (more + 1) ∧ groups value = groupsIn more value := by
  fun_induction groups value with
  | case1 value small => exact ⟨0, small, rfl⟩
  | case2 value large inductionHypothesis =>
      obtain ⟨more, room, written⟩ := inductionHypothesis
      refine ⟨more + 1, ?_, ?_⟩
      · rw [Nat.pow_succ]
        exact Nat.lt_mul_of_div_lt room (by decide)
      · rw [groupsIn, ← written]

theorem terminated_groups (value : Nat) : Terminated (groups value) := by
  obtain ⟨more, room, written⟩ := exists_groupsIn value
  rw [written]
  exact terminated_groupsIn room

theorem leastFirst_groups (value : Nat) : leastFirst (groups value) = value := by
  obtain ⟨more, room, written⟩ := exists_groupsIn value
  rw [written, leastFirst_groupsIn room]

theorem length_groups_le {limit value : Nat} (positive : 0 < limit) (small : value < 128 ^ limit) :
    (groups value).length ≤ limit := by
  induction limit generalizing value with
  | zero => cases positive
  | succ limit inductionHypothesis =>
      rw [groups]
      by_cases single : value < 128
      · rw [if_pos single]
        exact Nat.succ_le_succ (Nat.zero_le limit)
      · rw [if_neg single, List.length_cons]
        have several : 0 < limit := by
          rcases Nat.eq_zero_or_pos limit with rfl | several
          · omega
          · exact several
        exact Nat.succ_le_succ (inductionHypothesis several (div_lt_of_lt_pow small))

end Base128

end ByteListing
