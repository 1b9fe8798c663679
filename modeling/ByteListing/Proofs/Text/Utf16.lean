import ByteListing.Proofs.Bytes.Chunks
import ByteListing.Proofs.Text.Utf8
import ByteListing.Text.Utf16

/-! # Well-formed UTF-16 and UTF-32

The units of a text are read back as that text, whatever follows them, so lossy decoding undoes
encoding.  The other way round, units that decode strictly are those that the text is encoded
in.  Byte strings of units or of code points that stand for the same text are equal. -/
set_option autoImplicit false
namespace ByteListing

namespace Utf16

/-! ## Surrogates in numbers -/

theorem isHigh_iff {unit : UInt16} :
    isHigh unit = true ↔ 0xD800 ≤ unit.toNat ∧ unit.toNat < 0xDC00 := by
  simp [isHigh, UInt16.le_iff_toNat_le, UInt16.lt_iff_toNat_lt]

theorem isLow_iff {unit : UInt16} :
    isLow unit = true ↔ 0xDC00 ≤ unit.toNat ∧ unit.toNat < 0xE000 := by
  simp [isLow, UInt16.le_iff_toNat_le, UInt16.lt_iff_toNat_lt]

theorem toNat_pair {high low : UInt16} (highUnit : isHigh high = true)
    (lowUnit : isLow low = true) :
    (pair high low).toNat =
      0x10000 + (high.toNat - 0xD800) * 1024 + (low.toNat - 0xDC00) := by
  have highRange := isHigh_iff.mp highUnit
  have lowRange := isLow_iff.mp lowUnit
  have valid : (0x10000 + high.toNat % 1024 * 1024 + low.toNat % 1024).isValidChar :=
    .inr (by omega)
  have value : (pair high low).toNat =
      0x10000 + high.toNat % 1024 * 1024 + low.toNat % 1024 := by
    rw [pair, Char.toNat, Utf8.val_ofNat valid]
  rw [value]
  omega

/-! ## Encoding what was decoded -/

theorem encodeChar_ofNat {unit : UInt16} (noSurrogate : (isHigh unit || isLow unit) = false) :
    encodeChar (Char.ofNat unit.toNat) = [unit] := by
  have bound := unit.toNat_lt
  have outside : unit.toNat < 0xD800 ∨ 0xDFFF < unit.toNat := by
    rw [Bool.or_eq_false_iff, Bool.eq_false_iff, Bool.eq_false_iff, Ne, Ne, isHigh_iff,
      isLow_iff] at noSurrogate
    omega
  have valid : unit.toNat.isValidChar := by
    rcases outside with below | above
    · exact .inl below
    · exact .inr ⟨above, by omega⟩
  have value : (Char.ofNat unit.toNat).toNat = unit.toNat := Utf8.val_ofNat valid
  rw [encodeChar, value, if_pos bound, UInt16.ofNat_toNat]

theorem encodeChar_pair {high low : UInt16} (highUnit : isHigh high = true)
    (lowUnit : isLow low = true) : encodeChar (pair high low) = [high, low] := by
  have value := toNat_pair highUnit lowUnit
  have highRange := isHigh_iff.mp highUnit
  have lowRange := isLow_iff.mp lowUnit
  have large : ¬ (pair high low).toNat < 0x10000 := by omega
  have first : 0xD800 + ((pair high low).toNat - 0x10000) / 1024 = high.toNat := by omega
  have second : 0xDC00 + ((pair high low).toNat - 0x10000) % 1024 = low.toNat := by omega
  rw [encodeChar, if_neg large, first, second, UInt16.ofNat_toNat, UInt16.ofNat_toNat]

theorem encode_of_pieces {units : List UInt16} {text : List Char}
    (decoded : pieces units = text.map some) : encode text = units := by
  fun_induction pieces units generalizing text with
  | case1 =>
      rw [List.map_eq_nil_iff.mp decoded.symm]
      rfl
  | case2 unit =>
      cases text with
      | nil => cases decoded
      | cons c rest =>
          obtain ⟨here, later⟩ := List.cons.inj decoded
          have nothing : rest = [] := List.map_eq_nil_iff.mp later.symm
          split at here
          · cases here
          · rename_i noSurrogate
            obtain rfl := Option.some.inj here
            rw [nothing, encode, List.flatMap_singleton,
              encodeChar_ofNat (Bool.eq_false_iff.mpr noSurrogate)]
  | case3 unit next rest both inductionHypothesis =>
      cases text with
      | nil => cases decoded
      | cons c others =>
          obtain ⟨here, later⟩ := List.cons.inj decoded
          obtain rfl := Option.some.inj here
          have halves := Bool.and_eq_true_iff.mp both
          rw [encode, List.flatMap_cons, encodeChar_pair halves.1 halves.2, ← encode,
            inductionHypothesis later]
          rfl
  | case4 unit next rest noPair inductionHypothesis =>
      cases text with
      | nil => cases decoded
      | cons c others =>
          obtain ⟨here, later⟩ := List.cons.inj decoded
          split at here
          · cases here
          · rename_i noSurrogate
            obtain rfl := Option.some.inj here
            rw [encode, List.flatMap_cons,
              encodeChar_ofNat (Bool.eq_false_iff.mpr noSurrogate), ← encode,
              inductionHypothesis later]
            rfl

end Utf16

theorem map_some_of_mapM {Item : Type} {items : List (Option Item)} {found : List Item}
    (success : items.mapM id = some found) : items = found.map some := by
  induction items generalizing found with
  | nil =>
      cases success
      rfl
  | cons item rest inductionHypothesis =>
      rw [List.mapM_cons] at success
      obtain ⟨value, here, success⟩ := Option.bind_eq_some_iff.mp success
      obtain ⟨others, later, equal⟩ := Option.bind_eq_some_iff.mp success
      cases equal
      rw [List.map_cons, inductionHypothesis later]
      exact congrArg (· :: others.map some) here

namespace Utf16

theorem encode_of_decode? {units : List UInt16} {text : List Char}
    (success : decode? units = some text) : encode text = units :=
  encode_of_pieces (map_some_of_mapM success)

/-! ## Decoding what was encoded -/

theorem pieces_cons_of_no_surrogate {unit : UInt16}
    (noSurrogate : (isHigh unit || isLow unit) = false) (rest : List UInt16) :
    pieces (unit :: rest) = some (Char.ofNat unit.toNat) :: pieces rest := by
  obtain ⟨noHigh, noLow⟩ := Bool.or_eq_false_iff.mp noSurrogate
  cases rest with
  | nil => simp only [pieces, noSurrogate, Bool.false_eq_true, if_false]
  | cons next others =>
      simp only [pieces, noHigh, noLow, Bool.false_and, Bool.or_false, Bool.false_eq_true,
        if_false]

theorem pieces_cons_pair {high low : UInt16} (highUnit : isHigh high = true)
    (lowUnit : isLow low = true) (rest : List UInt16) :
    pieces (high :: low :: rest) = some (pair high low) :: pieces rest := by
  rw [pieces, highUnit, lowUnit]
  rfl

theorem pieces_encodeChar (c : Char) (rest : List UInt16) :
    pieces (encodeChar c ++ rest) = some c :: pieces rest := by
  have valid : c.toNat < 0xD800 ∨ 0xDFFF < c.toNat ∧ c.toNat < 0x110000 := c.valid
  by_cases single : c.toNat < 0x10000
  · have number : (UInt16.ofNat c.toNat).toNat = c.toNat := by
      rw [UInt16.toNat_ofNat']
      omega
    have noSurrogate :
        (isHigh (UInt16.ofNat c.toNat) || isLow (UInt16.ofNat c.toNat)) = false := by
      rw [Bool.or_eq_false_iff, Bool.eq_false_iff, Bool.eq_false_iff, Ne, Ne, isHigh_iff,
        isLow_iff, number]
      omega
    rw [encodeChar, if_pos single, List.singleton_append,
      pieces_cons_of_no_surrogate noSurrogate, number, Char.ofNat_toNat]
  · have highNumber : (UInt16.ofNat (0xD800 + (c.toNat - 0x10000) / 1024)).toNat =
        0xD800 + (c.toNat - 0x10000) / 1024 := by
      rw [UInt16.toNat_ofNat']
      omega
    have lowNumber : (UInt16.ofNat (0xDC00 + (c.toNat - 0x10000) % 1024)).toNat =
        0xDC00 + (c.toNat - 0x10000) % 1024 := by
      rw [UInt16.toNat_ofNat']
      omega
    have highUnit : isHigh (UInt16.ofNat (0xD800 + (c.toNat - 0x10000) / 1024)) = true := by
      rw [isHigh_iff, highNumber]
      omega
    have lowUnit : isLow (UInt16.ofNat (0xDC00 + (c.toNat - 0x10000) % 1024)) = true := by
      rw [isLow_iff, lowNumber]
      omega
    have value := toNat_pair highUnit lowUnit
    rw [highNumber, lowNumber] at value
    have same : pair (UInt16.ofNat (0xD800 + (c.toNat - 0x10000) / 1024))
        (UInt16.ofNat (0xDC00 + (c.toNat - 0x10000) % 1024)) = c := by
      rw [← Char.toNat_inj, value]
      omega
    rw [encodeChar, if_neg single, List.cons_append, List.singleton_append,
      pieces_cons_pair highUnit lowUnit, same]

theorem decodeLossy_encode (text : List Char) : decodeLossy (encode text) = text := by
  have read : pieces (encode text) = text.map some := by
    induction text with
    | nil => rfl
    | cons c rest inductionHypothesis =>
        rw [encode, List.flatMap_cons, pieces_encodeChar, ← encode, inductionHypothesis]
        rfl
  rw [decodeLossy, read, List.map_map]
  exact List.map_id text

/-! ## Octets -/

theorem ofBigEndian_inj (first second : Bytes) (firstSize : first.length = 2)
    (secondSize : second.length = 2)
    (same : UInt16.ofNat first.bigEndian = UInt16.ofNat second.bigEndian) : first = second := by
  have firstBound := Bytes.bigEndian_lt first
  have secondBound := Bytes.bigEndian_lt second
  rw [firstSize] at firstBound
  rw [secondSize] at secondBound
  have values := congrArg UInt16.toNat same
  rw [UInt16.toNat_ofNat_of_lt' firstBound, UInt16.toNat_ofNat_of_lt' secondBound] at values
  exact Bytes.bigEndian_inj (firstSize.trans secondSize.symm) values

theorem decodeBytes?_inj {first second : Bytes} {text : List Char}
    (decoded : decodeBytes? first = some text) (otherDecoded : decodeBytes? second = some text) :
    first = second := by
  rw [decodeBytes?] at decoded otherDecoded
  split at decoded
  · rename_i whole
    split at otherDecoded
    · rename_i otherWhole
      have units := (encode_of_decode? decoded).symm.trans (encode_of_decode? otherDecoded)
      exact Bytes.eq_of_chunks (by decide) ofBigEndian_inj whole otherWhole units
    · cases otherDecoded
  · cases decoded

end Utf16

namespace Utf32

theorem val_of_char? {value : Nat} {c : Char} (found : char? value = some c) :
    value = c.val.toNat := by
  rw [char?] at found
  split at found
  · rename_i valid
    cases found
    exact (Utf8.val_ofNat valid).symm
  · cases found

theorem values_of_mapM {values : List Nat} {text : List Char}
    (success : values.mapM char? = some text) : values = text.map (·.val.toNat) := by
  induction values generalizing text with
  | nil =>
      cases success
      rfl
  | cons value rest inductionHypothesis =>
      rw [List.mapM_cons] at success
      obtain ⟨c, here, success⟩ := Option.bind_eq_some_iff.mp success
      obtain ⟨others, later, equal⟩ := Option.bind_eq_some_iff.mp success
      cases equal
      rw [List.map_cons, ← inductionHypothesis later, ← val_of_char? here]

theorem decodeBytes?_inj {first second : Bytes} {text : List Char}
    (decoded : decodeBytes? first = some text) (otherDecoded : decodeBytes? second = some text) :
    first = second := by
  rw [decodeBytes?] at decoded otherDecoded
  split at decoded
  · rename_i whole
    split at otherDecoded
    · rename_i otherWhole
      have values := (values_of_mapM decoded).trans (values_of_mapM otherDecoded).symm
      have injective (piece other : Bytes) (size : piece.length = 4) (otherSize : other.length = 4)
          (same : piece.bigEndian = other.bigEndian) : piece = other :=
        Bytes.bigEndian_inj (size.trans otherSize.symm) same
      exact Bytes.eq_of_chunks (by decide) injective whole otherWhole values
    · cases otherDecoded
  · cases decoded

end Utf32

end ByteListing
