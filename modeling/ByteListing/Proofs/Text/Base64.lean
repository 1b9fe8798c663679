import ByteListing.Text.Base64
import ByteListing.Text.Cut

/-! # Base 64 written and read back

The writer that goes with the reader: three octets in four characters, and a last group of one or
two octets filled up.  `decode?_encode` says that nothing is lost, `plain_of_mem_encode` that the
characters are none of those that have a meaning around them. -/
set_option autoImplicit false
namespace ByteListing.Base64

def digit (value : Nat) : UInt8 :=
  if value < 26 then UInt8.ofNat (value + 0x41)
  else if value < 52 then UInt8.ofNat (value - 26 + 0x61)
  else if value < 62 then UInt8.ofNat (value - 52 + 0x30)
  else if value = 62 then 0x2B
  else 0x2F

def encode : Bytes → Bytes
  | [] => []
  | [first] => [digit (first.toNat / 4), digit (first.toNat % 4 * 16), filler, filler]
  | [first, second] =>
    [digit (first.toNat / 4), digit (first.toNat % 4 * 16 + second.toNat / 16),
      digit (second.toNat % 16 * 4), filler]
  | first :: second :: third :: rest =>
    digit (first.toNat / 4) :: digit (first.toNat % 4 * 16 + second.toNat / 16) ::
      digit (second.toNat % 16 * 4 + third.toNat / 64) :: digit (third.toNat % 64) :: encode rest

/-! ## Characters -/

theorem value?_digit {value : Nat} (small : value < 64) : value? (digit value) = some value := by
  revert value
  decide

theorem digit_ne_filler {value : Nat} (small : value < 64) : digit value ≠ filler := by
  revert value
  decide

theorem digit_or_filler_of_mem_encode {data : Bytes} {byte : UInt8} (member : byte ∈ encode data) :
    byte = filler ∨ ∃ value, value < 64 ∧ byte = digit value := by
  fun_induction encode data with
  | case1 => cases member
  | case2 first =>
      have bound := first.toNat_lt
      simp only [List.mem_cons, List.not_mem_nil, or_false] at member
      rcases member with rfl | rfl | rfl | rfl
      · exact .inr ⟨_, by omega, rfl⟩
      · exact .inr ⟨_, by omega, rfl⟩
      · exact .inl rfl
      · exact .inl rfl
  | case3 first second =>
      have bound := first.toNat_lt
      have secondBound := second.toNat_lt
      simp only [List.mem_cons, List.not_mem_nil, or_false] at member
      rcases member with rfl | rfl | rfl | rfl
      · exact .inr ⟨_, by omega, rfl⟩
      · exact .inr ⟨_, by omega, rfl⟩
      · exact .inr ⟨_, by omega, rfl⟩
      · exact .inl rfl
  | case4 first second third rest inductionHypothesis =>
      have bound := first.toNat_lt
      have secondBound := second.toNat_lt
      have thirdBound := third.toNat_lt
      simp only [List.mem_cons] at member
      rcases member with rfl | rfl | rfl | rfl | later
      · exact .inr ⟨_, by omega, rfl⟩
      · exact .inr ⟨_, by omega, rfl⟩
      · exact .inr ⟨_, by omega, rfl⟩
      · exact .inr ⟨_, by omega, rfl⟩
      · exact inductionHypothesis later

theorem plain_digit {value : Nat} (small : value < 64) :
    digit value ≠ 0x3A ∧ digit value ≠ 0x2D ∧ Bytes.isBlank (digit value) = false := by
  revert value
  decide

theorem plain_of_mem_encode {data : Bytes} {byte : UInt8} (member : byte ∈ encode data) :
    byte ≠ 0x3A ∧ byte ≠ 0x2D ∧ Bytes.isBlank byte = false := by
  rcases digit_or_filler_of_mem_encode member with rfl | ⟨value, small, rfl⟩
  · decide
  · exact plain_digit small

/-! ## Groups -/

theorem octets_three (first second third : UInt8) :
    octets 3 (first.toNat / 4 * 262144 + (first.toNat % 4 * 16 + second.toNat / 16) * 4096 +
      (second.toNat % 16 * 4 + third.toNat / 64) * 64 + third.toNat % 64) =
      [first, second, third] := by
  have bound := first.toNat_lt
  have secondBound := second.toNat_lt
  have thirdBound := third.toNat_lt
  simp only [octets, List.take_succ_cons, List.take_zero, List.cons.injEq, and_true,
    ← UInt8.toNat_inj, UInt8.toNat_ofNat']
  omega

theorem octets_two (first second : UInt8) :
    octets 2 (first.toNat / 4 * 262144 + (first.toNat % 4 * 16 + second.toNat / 16) * 4096 +
      second.toNat % 16 * 4 * 64) = [first, second] := by
  have bound := first.toNat_lt
  have secondBound := second.toNat_lt
  simp only [octets, List.take_succ_cons, List.take_zero, List.cons.injEq, and_true,
    ← UInt8.toNat_inj, UInt8.toNat_ofNat']
  omega

theorem octets_one (first : UInt8) :
    octets 1 (first.toNat / 4 * 262144 + first.toNat % 4 * 16 * 4096) = [first] := by
  have bound := first.toNat_lt
  simp only [octets, List.take_succ_cons, List.take_zero, List.cons.injEq, and_true,
    ← UInt8.toNat_inj, UInt8.toNat_ofNat']
  omega

section Values

variable {a b c d : Nat} (aSmall : a < 64) (bSmall : b < 64) (cSmall : c < 64)
  (dSmall : d < 64)
include aSmall bSmall

theorem lastGroup?_one (noRest : b % 16 = 0) :
    lastGroup? (digit a) (digit b) filler filler = some (octets 1 (a * 262144 + b * 4096)) := by
  simp only [lastGroup?, value?_digit aSmall, value?_digit bSmall, Option.bind_eq_bind,
    Option.bind_some, true_and, if_true, noRest]

include cSmall

theorem lastGroup?_two (noRest : c % 4 = 0) :
    lastGroup? (digit a) (digit b) (digit c) filler =
      some (octets 2 (a * 262144 + b * 4096 + c * 64)) := by
  simp only [lastGroup?, value?_digit aSmall, value?_digit bSmall, value?_digit cSmall,
    Option.bind_eq_bind, Option.bind_some, digit_ne_filler cSmall, false_and, if_false, if_true,
    noRest]

include dSmall

theorem lastGroup?_three : lastGroup? (digit a) (digit b) (digit c) (digit d) =
    some (octets 3 (a * 262144 + b * 4096 + c * 64 + d)) := by
  simp only [lastGroup?, value?_digit aSmall, value?_digit bSmall, value?_digit cSmall,
    value?_digit dSmall, Option.bind_eq_bind, Option.bind_some, digit_ne_filler cSmall,
    digit_ne_filler dSmall, false_and, if_false]

theorem group?_digits : group? (digit a) (digit b) (digit c) (digit d) =
    some (octets 3 (a * 262144 + b * 4096 + c * 64 + d)) := by
  simp only [group?, value?_digit aSmall, value?_digit bSmall, value?_digit cSmall,
    value?_digit dSmall, Option.bind_eq_bind, Option.bind_some]

end Values

theorem decode?_group {first second third fourth : UInt8} {front others rest : Bytes}
    (here : group? first second third fourth = some front)
    (last : lastGroup? first second third fourth = some front)
    (later : decode? rest = some others) :
    decode? (first :: second :: third :: fourth :: rest) = some (front ++ others) := by
  cases rest with
  | nil =>
      cases later
      rw [decode?, last, List.append_nil]
  | cons fifth after =>
      rw [decode?, here, later]
      · rfl
      · nofun

theorem decode?_encode (data : Bytes) : decode? (encode data) = some data := by
  fun_induction encode data with
  | case1 => rfl
  | case2 first =>
      have bound := first.toNat_lt
      rw [decode?, lastGroup?_one (by omega) (by omega) (by omega), octets_one]
  | case3 first second =>
      have bound := first.toNat_lt
      have secondBound := second.toNat_lt
      rw [decode?, lastGroup?_two (by omega) (by omega) (by omega) (by omega), octets_two]
  | case4 first second third rest inductionHypothesis =>
      have bound := first.toNat_lt
      have secondBound := second.toNat_lt
      have thirdBound := third.toNat_lt
      have here := group?_digits (a := first.toNat / 4)
        (b := first.toNat % 4 * 16 + second.toNat / 16)
        (c := second.toNat % 16 * 4 + third.toNat / 64) (d := third.toNat % 64)
        (by omega) (by omega) (by omega) (by omega)
      have last := lastGroup?_three (a := first.toNat / 4)
        (b := first.toNat % 4 * 16 + second.toNat / 16)
        (c := second.toNat % 16 * 4 + third.toNat / 64) (d := third.toNat % 64)
        (by omega) (by omega) (by omega) (by omega)
      rw [octets_three] at here last
      exact decode?_group here last inductionHypothesis

end ByteListing.Base64
