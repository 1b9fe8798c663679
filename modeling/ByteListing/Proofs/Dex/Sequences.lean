import ByteListing.Proofs.Dex.Positions

/-! # Splitting into sequences

A byte string is split from the left into well-formed sequences of one to three octets, each of
which is one unit, and octets with which no such sequence begins, each of which is a replacement
character.  `Sequence` says which octets are well formed and what they are worth, and `Split` what
a whole byte string is split into.  There is exactly one way, and the decoder finds it
(`split_iff`); what was encoded is split into the units that it was encoded from. -/
set_option autoImplicit false
namespace ByteListing.Dex.Mutf8

/-- The well-formed octets of a unit.  Nothing is said of the shortest form: a unit may be written
in more octets than it needs. -/
inductive Sequence : Bytes → UInt16 → Prop
  | one {value : Nat} : value < 0x80 → Sequence [UInt8.ofNat value] (UInt16.ofNat value)
  | two {high low : Nat} : high < 32 → low < 64 →
      Sequence [UInt8.ofNat (0xC0 + high), UInt8.ofNat (0x80 + low)]
        (UInt16.ofNat (high * 64 + low))
  | three {high middle low : Nat} : high < 16 → middle < 64 → low < 64 →
      Sequence [UInt8.ofNat (0xE0 + high), UInt8.ofNat (0x80 + middle), UInt8.ofNat (0x80 + low)]
        (UInt16.ofNat (high * 4096 + middle * 64 + low))

inductive Split : Bytes → List UInt16 → Prop
  | nil : Split [] []
  | sequence {octets rest : Bytes} {unit : UInt16} {units : List UInt16} :
      Sequence octets unit → Split rest units → Split (octets ++ rest) (unit :: units)
  | stray {byte : UInt8} {rest : Bytes} {units : List UInt16} :
      (∀ octets unit, Sequence octets unit → ¬ octets <+: byte :: rest) → Split rest units →
      Split (byte :: rest) (replacement :: units)

/-! ## Single sequences -/

theorem sequence?_of_sequence {octets : Bytes} {unit : UInt16} (formed : Sequence octets unit) :
    ∃ first behind value, octets = first :: behind ∧ unit = UInt16.ofNat value ∧
      ∀ rest, sequence? first (behind ++ rest) = some (value, behind.length) := by
  cases formed with
  | one small => exact ⟨_, [], _, rfl, rfl, sequence?_one small⟩
  | two highSmall lowSmall =>
      exact ⟨_, [_], _, rfl, rfl, sequence?_two highSmall lowSmall⟩
  | three highSmall middleSmall lowSmall =>
      exact ⟨_, [_, _], _, rfl, rfl, sequence?_three highSmall middleSmall lowSmall⟩

theorem eq_ofNat (bits : Nat) {byte : UInt8} {lead : Nat} (lower : lead ≤ byte.toNat)
    (upper : byte.toNat < lead + bits) (aligned : lead % bits = 0) :
    byte.toNat % bits < bits ∧ byte = UInt8.ofNat (lead + byte.toNat % bits) := by
  have positive : 0 < bits := by omega
  have same : lead + byte.toNat % bits = byte.toNat := by
    obtain ⟨factor, rfl⟩ := Nat.dvd_of_mod_eq_zero aligned
    obtain ⟨rest, value⟩ := Nat.exists_eq_add_of_le lower
    have small : rest < bits := by omega
    rw [value, Nat.mul_add_mod, Nat.mod_eq_of_lt small]
  refine ⟨Nat.mod_lt _ positive, ?_⟩
  rw [same, UInt8.ofNat_toNat]

theorem isContinuation_iff {byte : UInt8} :
    isContinuation byte = true ↔ 0x80 ≤ byte.toNat ∧ byte.toNat < 0x80 + 64 := by
  simp only [isContinuation, Bool.and_eq_true, decide_eq_true_eq, UInt8.le_iff_toNat_le,
    UInt8.lt_iff_toNat_lt, UInt8.reduceToNat]

theorem sequence_of_sequence? {byte : UInt8} {rest : Bytes} {value following : Nat}
    (found : sequence? byte rest = some (value, following)) :
    ∃ behind back, rest = behind ++ back ∧ behind.length = following ∧
      Sequence (byte :: behind) (UInt16.ofNat value) := by
  rw [sequence?.eq_def] at found
  split at found
  · rename_i small
    cases found
    have written : Sequence [UInt8.ofNat byte.toNat] (UInt16.ofNat byte.toNat) := .one small
    rw [UInt8.ofNat_toNat] at written
    exact ⟨[], rest, rfl, rfl, written⟩
  · split at found
    · rename_i lead
      simp only [UInt8.le_iff_toNat_le, UInt8.lt_iff_toNat_lt, UInt8.reduceToNat] at lead
      obtain ⟨highSmall, high⟩ := eq_ofNat 32 lead.1 lead.2 rfl
      split at found
      · rename_i second others
        split at found
        · rename_i continued
          cases found
          have range := isContinuation_iff.mp continued
          obtain ⟨lowSmall, low⟩ := eq_ofNat 64 range.1 range.2 rfl
          have written := Sequence.two highSmall lowSmall
          rw [← high, ← low] at written
          exact ⟨[second], others, rfl, rfl, written⟩
        · cases found
      · cases found
    · split at found
      · rename_i lead
        simp only [UInt8.le_iff_toNat_le, UInt8.lt_iff_toNat_lt, UInt8.reduceToNat] at lead
        obtain ⟨highSmall, high⟩ := eq_ofNat 16 lead.1 lead.2 rfl
        split at found
        · rename_i second third others
          split at found
          · rename_i continued
            cases found
            have range := isContinuation_iff.mp continued.1
            have lastRange := isContinuation_iff.mp continued.2
            obtain ⟨middleSmall, middle⟩ := eq_ofNat 64 range.1 range.2 rfl
            obtain ⟨lowSmall, low⟩ := eq_ofNat 64 lastRange.1 lastRange.2 rfl
            have written := Sequence.three highSmall middleSmall lowSmall
            rw [← high, ← middle, ← low] at written
            exact ⟨[second, third], others, rfl, rfl, written⟩
          · cases found
        · cases found
      · cases found

theorem sequence?_eq_none_iff {byte : UInt8} {rest : Bytes} :
    sequence? byte rest = none ↔
      ∀ octets unit, Sequence octets unit → ¬ octets <+: byte :: rest := by
  constructor
  · rintro missing octets unit formed ⟨back, whole⟩
    obtain ⟨first, behind, value, rfl, -, found⟩ := sequence?_of_sequence formed
    rw [List.cons_append] at whole
    obtain ⟨rfl, rfl⟩ := List.cons.inj whole
    rw [found] at missing
    cases missing
  · intro stray
    cases found : sequence? byte rest with
    | none => rfl
    | some shown =>
        obtain ⟨value, following⟩ := shown
        obtain ⟨behind, back, rfl, -, formed⟩ := sequence_of_sequence? found
        exact absurd ⟨back, rfl⟩ (stray _ _ formed)

/-! ## Whole byte strings -/

theorem units_stray {byte : UInt8} {rest : Bytes} (missing : sequence? byte rest = none) :
    units (byte :: rest) = replacement :: units rest := by
  rw [units]
  split
  · rfl
  · rename_i shown
    rw [missing] at shown
    cases shown

theorem units_sequence {octets : Bytes} {unit : UInt16} (formed : Sequence octets unit)
    (rest : Bytes) : units (octets ++ rest) = unit :: units rest := by
  obtain ⟨first, behind, value, rfl, rfl, found⟩ := sequence?_of_sequence formed
  rw [List.cons_append, units_cons (found rest), List.drop_left]

theorem split_units (data : Bytes) : Split data (units data) := by
  fun_induction units data with
  | case1 => exact .nil
  | case2 byte rest missing inductionHypothesis =>
      exact .stray (sequence?_eq_none_iff.mp missing) inductionHypothesis
  | case3 byte rest value following found inductionHypothesis =>
      obtain ⟨behind, back, rfl, rfl, formed⟩ := sequence_of_sequence? found
      rw [List.drop_left] at inductionHypothesis ⊢
      exact .sequence formed inductionHypothesis

/-- A byte string is split in one way only, which the decoder finds. -/
theorem split_iff {data : Bytes} {others : List UInt16} :
    Split data others ↔ others = units data := by
  constructor
  · intro split
    induction split with
    | nil => rw [units]
    | sequence formed _ inductionHypothesis =>
        rw [units_sequence formed, inductionHypothesis]
    | stray missing _ inductionHypothesis =>
        rw [units_stray (sequence?_eq_none_iff.mpr missing), inductionHypothesis]
  · rintro rfl
    exact split_units data

/-- Every text is read back from its encoding, which is split into the units of the text and holds
no zero: at any position of a container the text ends at the zero behind it, and reading goes on
just after that zero, whatever follows.  Any byte string at all is split into units in exactly one
way, and its text is that of the units, with replacement characters for lone surrogates. -/
theorem text_read_back_and_split :
    (∀ text : List Char, decode (encode text) = text ∧ 0 ∉ encode text ∧
      Split (encode text) (Utf16.encode text) ∧
      ∀ before after : Bytes,
        terminatedText (before ++ encode text ++ 0 :: after) before.length =
          .ok (String.ofList text, before.length + (encode text).length + 1)) ∧
    ∀ data : Bytes, ∃ found, decode data = Utf16.decodeLossy found ∧
      ∀ others, Split data others ↔ others = found := by
  constructor
  · intro text
    refine ⟨decode_encode text, zero_not_mem_encode text, split_iff.mpr (units_encode _).symm, ?_⟩
    intro before after
    have held : Holds (before ++ encode text ++ 0 :: after) before.length
        (encode (String.ofList text).toList ++ [0]) := by
      refine ⟨before, after, ?_, rfl⟩
      simp
    simpa using terminatedText_of_holds held
  · intro data
    exact ⟨units data, rfl, fun others => split_iff⟩

/-- Zero is written in two octets, and an octet that continues nothing is replaced. -/
example : encode ['a', '\x00'] = [0x61, 0xC0, 0x80] ∧ decode [0x80, 0x62] = ['\ufffd', 'b'] := by
  decide +kernel

end ByteListing.Dex.Mutf8
