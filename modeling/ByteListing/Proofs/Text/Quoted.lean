import ByteListing.Proofs.Text.Hex
import ByteListing.Proofs.Text.Utf8
import ByteListing.Text.Quoted

/-! # Quoted literals read back

`unescape` turns the inside of a literal into octets again.  It undoes every escape, whether the
literal was written from a text or octet by octet, so that different byte strings have different
literals. -/
set_option autoImplicit false
namespace ByteListing.Quoted

/-- The octets that the inside of a literal stands for.  A backslash that begins no escape stands
for itself, as any other character does. -/
def unescape : List Char → Bytes
  | '\\' :: '\\' :: rest => 0x5C :: unescape rest
  | '\\' :: '\"' :: rest => 0x22 :: unescape rest
  | '\\' :: 'n' :: rest => 0x0A :: unescape rest
  | '\\' :: 'r' :: rest => 0x0D :: unescape rest
  | '\\' :: 't' :: rest => 0x09 :: unescape rest
  | '\\' :: 'x' :: high :: low :: rest =>
    match Hex.value? high, Hex.value? low with
    | some upper, some lower => UInt8.ofNat (16 * upper + lower) :: unescape rest
    | _, _ => 0x5C :: unescape ('x' :: high :: low :: rest)
  | c :: rest => String.utf8EncodeChar c ++ unescape rest
  | [] => []

theorem unescape_plain {c : Char} (noEscape : c ≠ '\\') (rest : List Char) :
    unescape (c :: rest) = String.utf8EncodeChar c ++ unescape rest := by
  rw [unescape]
  all_goals
    intros
    exact absurd ‹c = '\\'› noEscape

theorem unescape_escapeOctet (byte : UInt8) (rest : List Char) :
    unescape (escapeOctet byte ++ rest) = byte :: unescape rest := by
  have bound := byte.toNat_lt
  have split : 16 * (byte.toNat / 16) + byte.toNat % 16 = byte.toNat := Nat.div_add_mod ..
  simp only [escapeOctet, Hex.octet, List.cons_append, List.nil_append, unescape,
    Hex.value?_digit (show byte.toNat / 16 < 16 by omega),
    Hex.value?_digit (show byte.toNat % 16 < 16 by omega), split, UInt8.ofNat_toNat]

theorem unescape_escapeOctets (bytes : Bytes) (rest : List Char) :
    unescape (bytes.flatMap escapeOctet ++ rest) = bytes ++ unescape rest := by
  induction bytes with
  | nil => rfl
  | cons byte others inductionHypothesis =>
      rw [List.flatMap_cons, List.append_assoc, unescape_escapeOctet, inductionHypothesis]
      rfl

theorem unescape_escapeChar (c : Char) (rest : List Char) :
    unescape (escapeChar c ++ rest) = String.utf8EncodeChar c ++ unescape rest := by
  fun_cases escapeChar c with
  | case1 isBackslash => subst isBackslash; rfl
  | case2 _ isQuote => subst isQuote; rfl
  | case3 _ _ isFeed => subst isFeed; rfl
  | case4 _ _ _ isReturn => subst isReturn; rfl
  | case5 _ _ _ _ isTab => subst isTab; rfl
  | case6 => exact unescape_escapeOctets ..
  | case7 noBackslash => exact unescape_plain noBackslash rest

theorem ofNat_toNat_ne {byte : UInt8} {c : Char} (other : byte ≠ UInt8.ofNat c.toNat) :
    Char.ofNat byte.toNat ≠ c := by
  rintro rfl
  have valid : byte.toNat.isValidChar := .inl (Nat.lt_trans byte.toNat_lt (by decide))
  have value : (Char.ofNat byte.toNat).toNat = byte.toNat := Utf8.val_ofNat valid
  rw [value, UInt8.ofNat_toNat] at other
  exact other rfl

theorem unescape_escapeByte (byte : UInt8) (rest : List Char) :
    unescape (escapeByte byte ++ rest) = byte :: unescape rest := by
  fun_cases escapeByte byte with
  | case1 isBackslash => subst isBackslash; rfl
  | case2 _ isQuote => subst isQuote; rfl
  | case3 _ _ isFeed => subst isFeed; rfl
  | case4 noBackslash _ _ printable =>
      have small : byte.toNat < 128 := Nat.lt_of_le_of_lt printable.2 (by decide)
      have plain : Char.ofNat byte.toNat ≠ '\\' := ofNat_toNat_ne noBackslash
      rw [List.singleton_append, unescape_plain plain, Utf8.encode_one rfl small]
      rfl
  | case5 => exact unescape_escapeOctet ..

theorem unescape_escapeText (text : List Char) : unescape (escapeText text) = Utf8.encode text := by
  induction text with
  | nil => rfl
  | cons c rest inductionHypothesis =>
      rw [escapeText, List.flatMap_cons, unescape_escapeChar, Utf8.encode_cons,
        ← inductionHypothesis]
      rfl

theorem unescape_escapedBytes (data : Bytes) : unescape (data.flatMap escapeByte) = data := by
  induction data with
  | nil => rfl
  | cons byte rest inductionHypothesis =>
      rw [List.flatMap_cons, unescape_escapeByte, inductionHypothesis]

theorem unescape_escapeBytes (data : Bytes) : unescape (escapeBytes data) = data := by
  rw [escapeBytes]
  split
  · rename_i text decoded
    rw [unescape_escapeText, Utf8.encode_of_decode? decoded]
  · exact unescape_escapedBytes data

/-! ## No control characters -/

theorem isControl_digit {value : Nat} (small : value < 16) :
    Unicode.isControl (Hex.digit value) = false := by
  revert value
  decide

theorem isControl_of_mem_escapeOctet {byte : UInt8} {c : Char} (member : c ∈ escapeOctet byte) :
    Unicode.isControl c = false := by
  have bound := byte.toNat_lt
  simp only [escapeOctet, Hex.octet, List.mem_cons, List.not_mem_nil, or_false] at member
  obtain rfl | rfl | rfl | rfl := member
  · decide
  · decide
  · exact isControl_digit (by omega)
  · exact isControl_digit (by omega)

theorem isControl_of_mem_pair {second c : Char} (visible : Unicode.isControl second = false)
    (member : c ∈ ['\\', second]) : Unicode.isControl c = false := by
  simp only [List.mem_cons, List.not_mem_nil, or_false] at member
  obtain rfl | rfl := member
  · decide
  · exact visible

theorem isControl_of_mem_escapeChar {c shown : Char} (member : shown ∈ escapeChar c) :
    Unicode.isControl shown = false := by
  revert member
  fun_cases escapeChar c with
  | case1 => exact isControl_of_mem_pair (by decide)
  | case2 => exact isControl_of_mem_pair (by decide)
  | case3 => exact isControl_of_mem_pair (by decide)
  | case4 => exact isControl_of_mem_pair (by decide)
  | case5 => exact isControl_of_mem_pair (by decide)
  | case6 =>
      intro member
      obtain ⟨byte, -, written⟩ := List.mem_flatMap.mp member
      exact isControl_of_mem_escapeOctet written
  | case7 _ _ _ _ _ noControl =>
      intro member
      obtain rfl := List.mem_singleton.mp member
      exact Bool.eq_false_iff.mpr noControl

theorem isControl_of_mem_escapeByte {byte : UInt8} {shown : Char}
    (member : shown ∈ escapeByte byte) : Unicode.isControl shown = false := by
  revert member
  fun_cases escapeByte byte with
  | case1 => exact isControl_of_mem_pair (by decide)
  | case2 => exact isControl_of_mem_pair (by decide)
  | case3 => exact isControl_of_mem_pair (by decide)
  | case4 _ _ _ printable =>
      intro member
      obtain rfl := List.mem_singleton.mp member
      have low : 0x20 ≤ byte.toNat := printable.1
      have high : byte.toNat ≤ 0x7E := printable.2
      have value : (Char.ofNat byte.toNat).toNat = byte.toNat := Utf8.val_ofNat (.inl (by omega))
      simp only [Unicode.isControl, Unicode.inRanges, value, List.any_cons, List.any_nil,
        Bool.or_false, Bool.or_eq_false_iff, Bool.and_eq_false_iff, decide_eq_false_iff_not]
      omega
  | case5 => exact isControl_of_mem_escapeOctet

theorem isControl_of_mem_escapeBytes {data : Bytes} {shown : Char}
    (member : shown ∈ escapeBytes data) : Unicode.isControl shown = false := by
  rw [escapeBytes] at member
  split at member
  · obtain ⟨c, -, written⟩ := List.mem_flatMap.mp member
    exact isControl_of_mem_escapeChar written
  · obtain ⟨byte, -, written⟩ := List.mem_flatMap.mp member
    exact isControl_of_mem_escapeByte written

/-! ## Whole literals -/

theorem toList_ofBytes (data : Bytes) :
    (ofBytes data).toList = '\"' :: (escapeBytes data ++ ['\"']) := by
  rw [ofBytes, enclose, String.toList_ofList]

theorem no_feed_ofBytes (data : Bytes) : '\n' ∉ (ofBytes data).toList := by
  rw [toList_ofBytes, List.mem_cons, List.mem_append, List.mem_singleton]
  rintro (equal | member | equal)
  · cases equal
  · exact absurd (isControl_of_mem_escapeBytes member) (by decide)
  · cases equal

theorem ofBytes_inj {first second : Bytes} (same : ofBytes first = ofBytes second) :
    first = second := by
  have listed := congrArg String.toList same
  rw [toList_ofBytes, toList_ofBytes, List.cons.injEq, List.append_cancel_right_eq] at listed
  rw [← unescape_escapeBytes first, listed.2, unescape_escapeBytes]

theorem ofBytes_ne_literal (first second : Bytes) : ofBytes first ≠ Hex.literal second := by
  intro same
  have listed := congrArg String.toList same
  rw [toList_ofBytes, Hex.toList_literal] at listed
  cases (List.cons.inj listed).1

theorem toList_ofText (text : List Char) :
    (ofText text).toList = '\"' :: (escapeText text ++ ['\"']) := by
  rw [ofText, enclose, String.toList_ofList]

theorem isControl_of_mem_ofText {text : List Char} {shown : Char}
    (member : shown ∈ (ofText text).toList) : Unicode.isControl shown = false := by
  rw [toList_ofText, List.mem_cons, List.mem_append, List.mem_singleton] at member
  rcases member with rfl | inside | rfl
  · decide
  · obtain ⟨c, -, written⟩ := List.mem_flatMap.mp inside
    exact isControl_of_mem_escapeChar written
  · decide

theorem no_feed_ofText (text : List Char) : '\n' ∉ (ofText text).toList := by
  intro member
  exact absurd (isControl_of_mem_ofText member) (by decide)

theorem encode_eq_of_ofText_eq {first second : List Char} (same : ofText first = ofText second) :
    Utf8.encode first = Utf8.encode second := by
  have listed := congrArg String.toList same
  rw [toList_ofText, toList_ofText, List.cons.injEq, List.append_cancel_right_eq] at listed
  rw [← unescape_escapeText, listed.2, unescape_escapeText]

end ByteListing.Quoted
