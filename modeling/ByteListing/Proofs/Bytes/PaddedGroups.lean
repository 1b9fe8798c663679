import Mathlib.Data.List.Induction
import ByteListing.Proofs.Bytes.Numbers

/-! # Numbers with their most significant group first

`mostFirstGroups` writes a number in as few groups of seven bits as it needs, the most significant
one first.  Groups that are zero may be put in front, which changes neither the number nor where it
ends, and nothing else is left open: octets that hold one number are its groups behind so many zero
groups (`terminated_iff_padded`).  Without those, octets are told by their number alone. -/
set_option autoImplicit false
namespace ByteListing.Base128

def leadingGroups (value : Nat) : Bytes :=
  if value = 0 then [] else leadingGroups (value / 128) ++ [UInt8.ofNat (128 + value % 128)]
termination_by value
decreasing_by omega

def mostFirstGroups (value : Nat) : Bytes :=
  leadingGroups (value / 128) ++ [UInt8.ofNat (value % 128)]

/-- The groups of a number behind groups that are zero. -/
def paddedGroups (zeros value : Nat) : Bytes := List.replicate zeros 0x80 ++ mostFirstGroups value

theorem mostFirstFrom_append (value : Nat) (front back : Bytes) :
    mostFirstFrom value (front ++ back) = mostFirstFrom (mostFirstFrom value front) back :=
  List.foldl_append

theorem mostFirstFrom_singleton (value : Nat) (byte : UInt8) :
    mostFirstFrom value [byte] = value * 128 + digit byte := rfl

theorem mostFirstFrom_zeros (zeros : Nat) : mostFirstFrom 0 (List.replicate zeros 0x80) = 0 := by
  induction zeros with
  | zero => rfl
  | succ zeros inductionHypothesis => exact inductionHypothesis

theorem mostFirst_leadingGroups (value : Nat) : mostFirst (leadingGroups value) = value := by
  fun_induction leadingGroups value with
  | case1 => rfl
  | case2 value positive inductionHypothesis =>
      rw [mostFirst] at inductionHypothesis ⊢
      rw [mostFirstFrom_append, inductionHypothesis, mostFirstFrom_singleton, digit,
        UInt8.toNat_ofNat']
      omega

theorem mostFirst_paddedGroups (zeros value : Nat) :
    mostFirst (paddedGroups zeros value) = value := by
  have leading := mostFirst_leadingGroups (value / 128)
  rw [mostFirst] at leading ⊢
  rw [paddedGroups, mostFirstGroups, mostFirstFrom_append, mostFirstFrom_zeros,
    mostFirstFrom_append, leading, mostFirstFrom_singleton, digit, UInt8.toNat_ofNat']
  omega

theorem head?_leadingGroups_ne (value : Nat) : (leadingGroups value).head? ≠ some 0x80 := by
  fun_induction leadingGroups value with
  | case1 => nofun
  | case2 value positive inductionHypothesis =>
      by_cases single : value / 128 = 0
      · -- The one group is the number itself, which is not zero.
        rw [single, leadingGroups, if_pos rfl, List.nil_append, List.head?_cons]
        intro same
        have octet : (UInt8.ofNat (128 + value % 128)).toNat = 128 :=
          congrArg UInt8.toNat (Option.some.inj same)
        rw [UInt8.toNat_ofNat'] at octet
        omega
      · have occupied : leadingGroups (value / 128) ≠ [] := by
          rw [leadingGroups, if_neg single]
          exact List.append_ne_nil_of_right_ne_nil _ (List.cons_ne_nil _ _)
        obtain ⟨first, others, listed⟩ := List.exists_cons_of_ne_nil occupied
        rw [listed] at inductionHypothesis ⊢
        exact inductionHypothesis

theorem head?_mostFirstGroups_ne (value : Nat) : (mostFirstGroups value).head? ≠ some 0x80 := by
  have leading := head?_leadingGroups_ne (value / 128)
  rw [mostFirstGroups, List.head?_append]
  cases first : (leadingGroups (value / 128)).head? with
  | none =>
      rw [Option.none_or, List.head?_cons]
      intro same
      have octet : (UInt8.ofNat (value % 128)).toNat = 128 :=
        congrArg UInt8.toNat (Option.some.inj same)
      rw [UInt8.toNat_ofNat'] at octet
      omega
  | some byte =>
      rw [first] at leading
      exact leading

/-! ## Where a number ends -/

theorem terminated_concat_iff {front : Bytes} {last : UInt8} :
    Terminated (front ++ [last]) ↔
      (∀ byte ∈ front, continues byte = true) ∧ continues last = false := by
  induction front with
  | nil =>
      constructor
      · intro terminated
        cases terminated with
        | last ends => exact ⟨nofun, ends⟩
        | more _ rest => exact absurd rfl rest.ne_nil
      · rintro ⟨-, ends⟩
        exact .last ends
  | cons byte rest inductionHypothesis =>
      rw [List.forall_mem_cons, and_assoc, ← inductionHypothesis]
      constructor
      · intro terminated
        generalize listed : byte :: rest ++ [last] = octets at terminated
        cases terminated with
        | last => simp at listed
        | more goes later =>
            obtain ⟨rfl, rfl⟩ := List.cons.inj listed
            exact ⟨goes, later⟩
      · rintro ⟨goes, later⟩
        exact .more goes later

theorem Terminated.exists_concat {groups : Bytes} (terminated : Terminated groups) :
    ∃ front last, groups = front ++ [last] ∧ (∀ byte ∈ front, continues byte = true) ∧
      continues last = false := by
  rcases List.eq_nil_or_concat groups with rfl | ⟨front, last, rfl⟩
  · exact absurd rfl terminated.ne_nil
  · rw [List.concat_eq_append] at terminated ⊢
    exact ⟨front, last, rfl, terminated_concat_iff.mp terminated⟩

theorem Terminated.append_inj {first second rest others : Bytes} (terminated : Terminated first)
    (otherTerminated : Terminated second) (same : first ++ rest = second ++ others) :
    first = second ∧ rest = others := by
  have read := splitGroups_append terminated (Nat.le_max_left _ second.length) rest
  have otherRead := splitGroups_append otherTerminated (Nat.le_max_right first.length _) others
  rw [same, otherRead] at read
  obtain ⟨rfl, rfl⟩ := Prod.mk.inj (Option.some.inj read)
  exact ⟨rfl, rfl⟩

/-- What ends where a number may end holds the whole of the number that it begins with. -/
theorem Terminated.split_fresh {first rest front behind : Bytes} (terminated : Terminated first)
    (occupied : front ≠ []) (fresh : ∀ last ∈ front.getLast?, continues last = false)
    (same : front ++ behind = first ++ rest) :
    ∃ further, front = first ++ further ∧ rest = further ++ behind := by
  induction terminated generalizing front with
  | last =>
      obtain ⟨byte, others, rfl⟩ := List.exists_cons_of_ne_nil occupied
      obtain ⟨rfl, following⟩ := List.cons.inj same
      exact ⟨others, rfl, following.symm⟩
  | more goes _ inductionHypothesis =>
      obtain ⟨byte, others, rfl⟩ := List.exists_cons_of_ne_nil occupied
      obtain ⟨rfl, following⟩ := List.cons.inj same
      cases others with
      | nil =>
          -- The number goes on behind its first octet.
          rw [fresh byte rfl] at goes
          cases goes
      | cons second later =>
          rw [List.getLast?_cons_cons] at fresh
          obtain ⟨further, othersEq, restEq⟩ :=
            inductionHypothesis (List.cons_ne_nil second later) fresh following
          exact ⟨further, congrArg (byte :: ·) othersEq, restEq⟩

theorem continues_of_mem_leadingGroups {value : Nat} {byte : UInt8}
    (member : byte ∈ leadingGroups value) : continues byte = true := by
  fun_induction leadingGroups value with
  | case1 => cases member
  | case2 value positive inductionHypothesis =>
      rcases List.mem_append.mp member with earlier | last
      · exact inductionHypothesis earlier
      · rw [List.mem_singleton.mp last, continues_iff, UInt8.toNat_ofNat']
        omega

theorem terminated_paddedGroups (zeros value : Nat) : Terminated (paddedGroups zeros value) := by
  rw [paddedGroups, mostFirstGroups, ← List.append_assoc, terminated_concat_iff]
  constructor
  · intro byte member
    rcases List.mem_append.mp member with zero | leading
    · rw [List.eq_of_mem_replicate zero]
      rfl
    · exact continues_of_mem_leadingGroups leading
  · refine Bool.eq_false_iff.mpr fun goes => ?_
    have large := continues_iff.mp goes
    rw [UInt8.toNat_ofNat'] at large
    omega

/-! ## What is left open -/

theorem eq_ofNat_of_continues {byte : UInt8} (goes : continues byte = true) :
    byte = UInt8.ofNat (128 + digit byte) := by
  have large := continues_iff.mp goes
  have bound := byte.toNat_lt
  refine UInt8.toNat_inj.mp ?_
  rw [UInt8.toNat_ofNat', digit]
  omega

theorem eq_ofNat_of_ends {byte : UInt8} (ends : continues byte = false) :
    byte = UInt8.ofNat (digit byte) := by
  have small : ¬ 128 ≤ byte.toNat := fun large => by
    rw [continues_iff.mpr large] at ends
    cases ends
  refine UInt8.toNat_inj.mp ?_
  rw [UInt8.toNat_ofNat', digit]
  omega

theorem exists_zeros {front : Bytes} (goes : ∀ byte ∈ front, continues byte = true) :
    ∃ zeros, front = List.replicate zeros 0x80 ++ leadingGroups (mostFirst front) := by
  induction front using List.reverseRecOn with
  | nil => exact ⟨0, by rw [mostFirst, mostFirstFrom, List.foldl_nil, leadingGroups]; rfl⟩
  | append_singleton front byte inductionHypothesis =>
      obtain ⟨zeros, frontEq⟩ := inductionHypothesis fun other member =>
        goes other (List.mem_append_left _ member)
      have byteEq := eq_ofNat_of_continues (goes byte List.mem_concat_self)
      have small : digit byte < 128 := Nat.mod_lt _ (by decide)
      have value : mostFirst (front ++ [byte]) = mostFirst front * 128 + digit byte :=
        mostFirstFrom_append 0 front [byte]
      rw [value, leadingGroups]
      by_cases zero : mostFirst front * 128 + digit byte = 0
      · -- Zeros alone so far, and one more.
        have frontZero : mostFirst front = 0 := by omega
        have byteZero : digit byte = 0 := by omega
        rw [frontZero, leadingGroups, if_pos rfl, List.append_nil] at frontEq
        rw [byteZero] at byteEq
        refine ⟨zeros + 1, ?_⟩
        rw [if_pos zero, List.append_nil, List.replicate_succ', ← frontEq, byteEq]
        rfl
      · refine ⟨zeros, ?_⟩
        have frontValue : (mostFirst front * 128 + digit byte) / 128 = mostFirst front := by omega
        have byteValue : (mostFirst front * 128 + digit byte) % 128 = digit byte := by omega
        rw [if_neg zero, frontValue, byteValue, ← byteEq, ← List.append_assoc, ← frontEq]

/-- Octets hold one number exactly if they are the groups of a number behind zeros. -/
theorem terminated_iff_padded {groups : Bytes} :
    Terminated groups ↔ ∃ zeros, groups = paddedGroups zeros (mostFirst groups) := by
  constructor
  · intro terminated
    obtain ⟨front, last, rfl, goes, ends⟩ := terminated.exists_concat
    obtain ⟨zeros, frontEq⟩ := exists_zeros goes
    have lastEq := eq_ofNat_of_ends ends
    have small : digit last < 128 := Nat.mod_lt _ (by decide)
    have value : mostFirst (front ++ [last]) = mostFirst front * 128 + digit last :=
      mostFirstFrom_append 0 front [last]
    have frontValue : (mostFirst front * 128 + digit last) / 128 = mostFirst front := by omega
    have lastValue : (mostFirst front * 128 + digit last) % 128 = digit last := by omega
    refine ⟨zeros, ?_⟩
    rw [value, paddedGroups, mostFirstGroups, frontValue, lastValue, ← lastEq,
      ← List.append_assoc, ← frontEq]
  · rintro ⟨zeros, padded⟩
    rw [padded]
    exact terminated_paddedGroups zeros _

theorem paddedGroups_of_head {zeros value : Nat}
    (unpadded : (paddedGroups zeros value).head? ≠ some 0x80) :
    paddedGroups zeros value = mostFirstGroups value := by
  cases zeros with
  | zero => rfl
  | succ zeros => exact absurd rfl unpadded

end ByteListing.Base128
