import ByteListing.Dex.Mutf8
import ByteListing.Proofs.Text.Utf16

/-! # Modified UTF-8 read back

Every unit is read back from the octets it is written in, whatever follows them
(`units_encodeUnit`), so every text is read back.  No unit is written with a zero octet, which
can therefore end a string. -/
set_option autoImplicit false
namespace ByteListing.Dex.Mutf8

theorem toNat_ofNat {value : Nat} (small : value < 256) : (UInt8.ofNat value).toNat = value := by
  rw [UInt8.toNat_ofNat']
  exact Nat.mod_eq_of_lt small

theorem isContinuation_ofNat {value : Nat} (small : value < 64) :
    isContinuation (UInt8.ofNat (0x80 + value)) = true := by
  have number : (UInt8.ofNat (0x80 + value)).toNat = 0x80 + value := toNat_ofNat (by omega)
  simp only [isContinuation, UInt8.le_iff_toNat_le, UInt8.lt_iff_toNat_lt, number,
    UInt8.reduceToNat, Bool.and_eq_true, decide_eq_true_eq]
  omega

/-! ## Sequences -/

theorem sequence?_one {value : Nat} (small : value < 0x80) (rest : Bytes) :
    sequence? (UInt8.ofNat value) rest = some (value, 0) := by
  have number : (UInt8.ofNat value).toNat = value := toNat_ofNat (by omega)
  have first : UInt8.ofNat value < 0x80 := by
    rw [UInt8.lt_iff_toNat_lt, number]
    exact small
  rw [sequence?.eq_def, if_pos first, number]

theorem sequence?_two {high low : Nat} (highSmall : high < 32) (lowSmall : low < 64)
    (rest : Bytes) :
    sequence? (UInt8.ofNat (0xC0 + high)) (UInt8.ofNat (0x80 + low) :: rest) =
      some (high * 64 + low, 1) := by
  have number : (UInt8.ofNat (0xC0 + high)).toNat = 0xC0 + high := toNat_ofNat (by omega)
  have lowNumber : (UInt8.ofNat (0x80 + low)).toNat = 0x80 + low := toNat_ofNat (by omega)
  have notOne : ¬ UInt8.ofNat (0xC0 + high) < 0x80 := by
    simp only [UInt8.lt_iff_toNat_lt, number, UInt8.reduceToNat]
    omega
  have two : 0xC0 ≤ UInt8.ofNat (0xC0 + high) ∧ UInt8.ofNat (0xC0 + high) < 0xE0 := by
    simp only [UInt8.le_iff_toNat_le, UInt8.lt_iff_toNat_lt, number, UInt8.reduceToNat]
    omega
  have value : (0xC0 + high) % 32 * 64 + (0x80 + low) % 64 = high * 64 + low := by omega
  simp only [sequence?, if_neg notOne, if_pos two, isContinuation_ofNat lowSmall, if_true, number,
    lowNumber, value]

theorem sequence?_three {high middle low : Nat} (highSmall : high < 16)
    (middleSmall : middle < 64) (lowSmall : low < 64) (rest : Bytes) :
    sequence? (UInt8.ofNat (0xE0 + high))
        (UInt8.ofNat (0x80 + middle) :: UInt8.ofNat (0x80 + low) :: rest) =
      some (high * 4096 + middle * 64 + low, 2) := by
  have number : (UInt8.ofNat (0xE0 + high)).toNat = 0xE0 + high := toNat_ofNat (by omega)
  have middleNumber : (UInt8.ofNat (0x80 + middle)).toNat = 0x80 + middle :=
    toNat_ofNat (by omega)
  have lowNumber : (UInt8.ofNat (0x80 + low)).toNat = 0x80 + low := toNat_ofNat (by omega)
  have notOne : ¬ UInt8.ofNat (0xE0 + high) < 0x80 := by
    simp only [UInt8.lt_iff_toNat_lt, number, UInt8.reduceToNat]
    omega
  have notTwo : ¬ (0xC0 ≤ UInt8.ofNat (0xE0 + high) ∧ UInt8.ofNat (0xE0 + high) < 0xE0) := by
    simp only [UInt8.le_iff_toNat_le, UInt8.lt_iff_toNat_lt, number, UInt8.reduceToNat]
    omega
  have three : 0xE0 ≤ UInt8.ofNat (0xE0 + high) ∧ UInt8.ofNat (0xE0 + high) < 0xF0 := by
    simp only [UInt8.le_iff_toNat_le, UInt8.lt_iff_toNat_lt, number, UInt8.reduceToNat]
    omega
  have value : (0xE0 + high) % 16 * 4096 + (0x80 + middle) % 64 * 64 + (0x80 + low) % 64 =
      high * 4096 + middle * 64 + low := by omega
  simp only [sequence?, if_neg notOne, if_neg notTwo, if_pos three,
    isContinuation_ofNat middleSmall, isContinuation_ofNat lowSmall, and_self, if_true, number,
    middleNumber, lowNumber, value]

/-! ## Units -/

theorem units_cons {byte : UInt8} {rest : Bytes} {value following : Nat}
    (found : sequence? byte rest = some (value, following)) :
    units (byte :: rest) = UInt16.ofNat value :: units (rest.drop following) := by
  rw [units]
  split
  · rename_i missing
    rw [found] at missing
    cases missing
  · rename_i shown
    rw [found] at shown
    cases shown
    rfl

theorem units_encodeUnit (unit : UInt16) (rest : Bytes) :
    units (encodeUnit unit ++ rest) = unit :: units rest := by
  have bound := unit.toNat_lt
  simp only [encodeUnit]
  split
  · rename_i one
    rw [List.singleton_append, units_cons (sequence?_one one.2 rest), UInt16.ofNat_toNat]
    rfl
  · split
    · rename_i two
      have value : unit.toNat / 64 * 64 + unit.toNat % 64 = unit.toNat := by omega
      rw [List.cons_append, List.singleton_append,
        units_cons (sequence?_two (by omega) (by omega) rest), value, UInt16.ofNat_toNat]
      rfl
    · have value : unit.toNat / 4096 * 4096 + unit.toNat / 64 % 64 * 64 + unit.toNat % 64 =
          unit.toNat := by omega
      rw [List.cons_append, List.cons_append, List.singleton_append,
        units_cons (sequence?_three (by omega) (by omega) (by omega) rest), value,
        UInt16.ofNat_toNat]
      rfl

theorem units_encode (written : List UInt16) : units (written.flatMap encodeUnit) = written := by
  induction written with
  | nil => rw [List.flatMap_nil, units]
  | cons unit rest inductionHypothesis =>
      rw [List.flatMap_cons, units_encodeUnit, inductionHypothesis]

theorem decode_encode (text : List Char) : decode (encode text) = text := by
  rw [decode, encode, units_encode, Utf16.decodeLossy_encode]

/-! ## Octets -/

theorem ofNat_ne_zero {value : Nat} (positive : 0 < value) (small : value < 256) :
    0 ≠ UInt8.ofNat value := by
  intro zero
  have number := congrArg UInt8.toNat zero
  rw [toNat_ofNat small] at number
  exact absurd number (Nat.ne_of_lt positive)

theorem zero_not_mem_encodeUnit (unit : UInt16) : 0 ∉ encodeUnit unit := by
  have bound := unit.toNat_lt
  simp only [encodeUnit]
  split
  · rename_i one
    simp only [List.mem_singleton]
    exact ofNat_ne_zero one.1 (by omega)
  · split
    · simp only [List.mem_cons, List.not_mem_nil, or_false, not_or]
      exact ⟨ofNat_ne_zero (by omega) (by omega), ofNat_ne_zero (by omega) (by omega)⟩
    · simp only [List.mem_cons, List.not_mem_nil, or_false, not_or]
      exact ⟨ofNat_ne_zero (by omega) (by omega), ofNat_ne_zero (by omega) (by omega),
        ofNat_ne_zero (by omega) (by omega)⟩

theorem zero_not_mem_encode (text : List Char) : 0 ∉ encode text := by
  intro member
  obtain ⟨unit, -, written⟩ := List.mem_flatMap.mp member
  exact zero_not_mem_encodeUnit unit written

theorem length_encodeUnit_pos (unit : UInt16) : 0 < (encodeUnit unit).length := by
  simp only [encodeUnit]
  split
  · exact Nat.succ_pos _
  · split <;> exact Nat.succ_pos _

theorem length_units_le (text : List Char) :
    (Utf16.encode text).length ≤ (encode text).length := by
  rw [encode]
  induction Utf16.encode text with
  | nil => exact Nat.le_refl 0
  | cons unit rest inductionHypothesis =>
      have positive := length_encodeUnit_pos unit
      rw [List.flatMap_cons, List.length_append, List.length_cons]
      omega

end ByteListing.Dex.Mutf8
