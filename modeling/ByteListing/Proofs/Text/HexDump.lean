import ByteListing.Proofs.Text.Hex
import ByteListing.Proofs.Text.Utf8Decoding
import ByteListing.Text.HexDump

/-! # Dumps are read exactly

A byte string has many dumps: each of its digits may be small or a capital, and separators may
stand anywhere among the digits (`IsDump`).  Reading takes the dumps of a byte string, encoded in
UTF-8, and nothing else for it.  Ill-formed UTF-8 cannot hide in a dump, since what stands in for it
is neither a digit nor a separator (`wellFormed_of_digits`).

What is wrong with other inputs is found in the text without its separators: its first character
that is no digit, with the number of octets before it (`FirstStray`), and only if there is none, an
odd number of digits. -/
set_option autoImplicit false
namespace ByteListing

/-! ## Flaws -/

namespace Hex

inductive FirstStray : (text : List Char) → Char → (position : Nat) → Prop
  | intro {before after : List Char} {c : Char} :
      (∀ digit ∈ before, (value? digit).isSome = true) → value? c = none →
      FirstStray (before ++ c :: after) c (Utf8.encode before).length

theorem firstInvalid_append {before : List Char}
    (digits : ∀ c ∈ before, (value? c).isSome = true) (position : Nat) (rest : List Char) :
    firstInvalid position (before ++ rest) =
      firstInvalid (position + (Utf8.encode before).length) rest := by
  induction before generalizing position with
  | nil => rfl
  | cons c others inductionHypothesis =>
      have later := inductionHypothesis
        (fun digit member => digits digit (List.mem_cons_of_mem c member)) (position + c.utf8Size)
      rw [List.cons_append, firstInvalid, if_pos (digits c List.mem_cons_self), later,
        Utf8.encode_cons, List.length_append, String.length_utf8EncodeChar, Nat.add_assoc]

theorem digits_or_stray (text : List Char) :
    (∀ c ∈ text, (value? c).isSome = true) ∨ ∃ c position, FirstStray text c position := by
  induction text with
  | nil => exact .inl fun c member => absurd member List.not_mem_nil
  | cons c rest inductionHypothesis =>
      by_cases digit : (value? c).isSome = true
      · rcases inductionHypothesis with digits | ⟨stray, _, @⟨before, after, _, digits, noDigit⟩⟩
        · exact .inl (List.forall_mem_cons.mpr ⟨digit, digits⟩)
        · have further : FirstStray (c :: before ++ stray :: after) stray
              (Utf8.encode (c :: before)).length :=
            .intro (List.forall_mem_cons.mpr ⟨digit, digits⟩) noDigit
          exact .inr ⟨stray, _, further⟩
      · have noDigit : value? c = none := Option.not_isSome_iff_eq_none.mp digit
        have alone : FirstStray ([] ++ c :: rest) c (Utf8.encode []).length :=
          .intro (fun digit member => absurd member List.not_mem_nil) noDigit
        exact .inr ⟨c, _, alone⟩

theorem decode_of_stray {text : List Char} {c : Char} {position : Nat}
    (stray : FirstStray text c position) :
    decode text = .error (.invalidCharacter c position) := by
  obtain ⟨digits, noDigit⟩ := stray
  have here : ¬ (value? c).isSome = true := by
    rw [noDigit]
    exact Bool.false_ne_true
  rw [decode, firstInvalid_append digits, firstInvalid, if_neg here, Nat.zero_add]

theorem decode_of_digits {text : List Char} (digits : ∀ c ∈ text, (value? c).isSome = true) :
    decode text = if text.length % 2 = 0 then .ok (pairs text) else .error .oddLength := by
  rw [decode, firstInvalid_eq_none digits]

theorem decode_eq_ok_iff {text : List Char} {data : Bytes} :
    decode text = .ok data ↔ text.map Char.toLower = digits data := by
  constructor
  · intro success
    rcases digits_or_stray text with all | ⟨c, position, stray⟩
    · rw [decode_of_digits all] at success
      split at success
      · rename_i even
        obtain rfl := Except.ok.inj success
        exact (digits_pairs all even).symm
      · cases success
    · rw [decode_of_stray stray] at success
      cases success
  · exact decode_of_toLower

theorem decode_eq_invalid_iff {text : List Char} {c : Char} {position : Nat} :
    decode text = .error (.invalidCharacter c position) ↔ FirstStray text c position := by
  constructor
  · intro failure
    rcases digits_or_stray text with all | ⟨other, place, stray⟩
    · rw [decode_of_digits all] at failure
      split at failure <;> cases failure
    · rw [decode_of_stray stray] at failure
      cases failure
      exact stray
  · exact decode_of_stray

theorem decode_eq_odd_iff {text : List Char} :
    decode text = .error .oddLength ↔
      (∀ c ∈ text, (value? c).isSome = true) ∧ text.length % 2 = 1 := by
  constructor
  · intro failure
    rcases digits_or_stray text with all | ⟨c, position, stray⟩
    · rw [decode_of_digits all] at failure
      split at failure
      · cases failure
      · rename_i odd
        exact ⟨all, Nat.mod_two_ne_zero.mp odd⟩
    · rw [decode_of_stray stray] at failure
      cases failure
  · rintro ⟨all, odd⟩
    rw [decode_of_digits all, if_neg (Nat.mod_two_ne_zero.mpr odd)]

end Hex

/-! ## Lossy texts -/

/-- Where nothing stands in for ill-formed pieces, there are none. -/
theorem Utf8.encode_decodeLossy {data : Bytes} (whole : replacement ∉ decodeLossy data) :
    encode (decodeLossy data) = data := by
  have read : ∀ found : List (Option Char), replacement ∉ found.map (·.getD replacement) →
      found.mapM id = some (found.map (·.getD replacement)) := by
    intro found
    induction found with
    | nil =>
        intro _
        rfl
    | cons piece rest inductionHypothesis =>
        intro absent
        rw [List.map_cons, List.mem_cons, not_or] at absent
        cases piece with
        | none => exact absurd rfl absent.1
        | some c =>
            rw [List.mapM_cons, inductionHypothesis absent.2]
            rfl
  exact encode_of_decode? (read (pieces data) whole)

namespace HexDump

/-! ## Separators -/

/-- A text with separators anywhere among what is kept of it. -/
inductive Interspersed : (kept text : List Char) → Prop
  | nil : Interspersed [] []
  | kept {c : Char} {kept text : List Char} :
      Interspersed kept text → Interspersed (c :: kept) (c :: text)
  | separator {c : Char} {kept text : List Char} :
      isSeparator c = true → Interspersed kept text → Interspersed kept (c :: text)

theorem interspersed_strip (text : List Char) : Interspersed (strip text) text := by
  induction text with
  | nil => exact .nil
  | cons c rest inductionHypothesis =>
      cases separates : isSeparator c with
      | true =>
          rw [strip, List.filter_cons_of_neg (by rw [separates]; decide)]
          exact .separator separates inductionHypothesis
      | false =>
          rw [strip, List.filter_cons_of_pos (by rw [separates]; rfl)]
          exact .kept inductionHypothesis

theorem strip_of_interspersed {kept text : List Char} (inserted : Interspersed kept text)
    (visible : ∀ c ∈ kept, isSeparator c = false) : strip text = kept := by
  induction inserted with
  | nil => rfl
  | @kept c kept text inserted inductionHypothesis =>
      rw [List.forall_mem_cons] at visible
      rw [strip, List.filter_cons_of_pos (by rw [visible.1]; rfl), ← strip,
        inductionHypothesis visible.2]
  | @separator c kept text separates inserted inductionHypothesis =>
      rw [strip, List.filter_cons_of_neg (by rw [separates]; decide), ← strip,
        inductionHypothesis visible]

theorem strip_eq_self {text : List Char} (visible : ∀ c ∈ text, isSeparator c = false) :
    strip text = text := by
  refine List.filter_eq_self.mpr fun c member => ?_
  rw [visible c member]
  rfl

theorem isSeparator_of_value? {c : Char} (digit : (Hex.value? c).isSome = true) :
    isSeparator c = false := by
  have all : ∀ code < 128, (Hex.value? (Char.ofNat code)).isSome = true →
      isSeparator (Char.ofNat code) = false := by decide +kernel
  exact Hex.forall_digit (isSeparator · = false) all digit

/-! ## Dumps -/

/-- A text that consists of the digits of a byte string, small ones and capitals, with separators
anywhere. -/
def IsDump (data : Bytes) (text : List Char) : Prop :=
  ∃ written : List Char, written.map Char.toLower = Hex.digits data ∧ Interspersed written text

theorem isDump_iff {data : Bytes} {text : List Char} :
    IsDump data text ↔ (strip text).map Char.toLower = Hex.digits data := by
  constructor
  · rintro ⟨written, lowered, inserted⟩
    have visible : ∀ c ∈ written, isSeparator c = false := fun c member =>
      isSeparator_of_value? (Hex.value?_of_toLower lowered member)
    rw [strip_of_interspersed inserted visible, lowered]
  · intro lowered
    exact ⟨strip text, lowered, interspersed_strip text⟩

theorem decode_encode (text : List Char) : decode (Utf8.encode text) = Hex.decode (strip text) := by
  rw [decode, Utf8.decodeLossy_encode]

theorem wellFormed_of_digits {input : Bytes}
    (digits : ∀ c ∈ strip (Utf8.decodeLossy input), (Hex.value? c).isSome = true) :
    Utf8.encode (Utf8.decodeLossy input) = input := by
  refine Utf8.encode_decodeLossy fun replaced => ?_
  have left : Utf8.replacement ∈ strip (Utf8.decodeLossy input) :=
    List.mem_filter.mpr ⟨replaced, by decide +kernel⟩
  exact absurd (digits _ left) (by decide)

theorem decode_eq_ok_iff {input data : Bytes} :
    decode input = .ok data ↔ ∃ text, input = Utf8.encode text ∧ IsDump data text := by
  constructor
  · intro success
    have lowered := Hex.decode_eq_ok_iff.mp success
    have wellFormed := wellFormed_of_digits fun c => Hex.value?_of_toLower lowered
    exact ⟨Utf8.decodeLossy input, wellFormed.symm, isDump_iff.mpr lowered⟩
  · rintro ⟨text, rfl, dump⟩
    rw [decode_encode]
    exact Hex.decode_eq_ok_iff.mpr (isDump_iff.mp dump)

/-- An input is read as a byte string exactly if it encodes a dump of it.  Otherwise the flaw is the
first character that is neither a digit nor a separator, with the number of octets that are left
before it, and only if there is none, an odd number of digits.  A text without separators is read
just as its digits are. -/
theorem dumps_are_read_exactly :
    (∀ input data : Bytes, decode input = .ok data ↔
      ∃ text, input = Utf8.encode text ∧ IsDump data text) ∧
    (∀ (input : Bytes) (c : Char) (position : Nat),
      decode input = .error (.invalidCharacter c position) ↔
        Hex.FirstStray (strip (Utf8.decodeLossy input)) c position) ∧
    (∀ input : Bytes, decode input = .error .oddLength ↔
      (∀ c ∈ strip (Utf8.decodeLossy input), (Hex.value? c).isSome = true) ∧
        (strip (Utf8.decodeLossy input)).length % 2 = 1) ∧
    (∀ (input : Bytes) (c : Char) (position : Nat),
      Hex.FirstStray (strip (Utf8.decodeLossy input)) c position →
        orFault (decode input) = .error (.invalidHex
          ("invalid character " ++ CharLiteral.quote c ++ " at position " ++
            toString position))) ∧
    (∀ text : List Char, (∀ c ∈ text, isSeparator c = false) →
      Hex.decode text = decode (Utf8.encode text)) := by
  refine ⟨fun input data => decode_eq_ok_iff, fun input c position => Hex.decode_eq_invalid_iff,
    fun input => Hex.decode_eq_odd_iff, ?_, ?_⟩
  · intro input c position stray
    rw [decode, Hex.decode_of_stray stray]
    rfl
  · intro text visible
    rw [decode_encode, strip_eq_self visible]

/-- A dump in quotation marks with a dash and digits of either case, a dash and an octet that is no
text among digits, and a text that is no dump. -/
theorem dump_in_quotation_marks :
    IsDump [0x3A, 0xBC] "«3a—Bc »".toList ∧
    decode (Utf8.encode "«3a—Bc »".toList) = .ok [0x3A, 0xBC] ∧
    Hex.FirstStray (strip (Utf8.decodeLossy (Utf8.encode "3—".toList ++ [0xFF, 0x30])))
      Utf8.replacement 1 ∧
    orFault (decode (Utf8.encode "3—".toList ++ [0xFF, 0x30])) =
      .error (.invalidHex "invalid character '\uFFFD' at position 1") ∧
    (∀ c ∈ "3g".toList, isSeparator c = false) ∧
    Hex.decode "3g".toList = decode (Utf8.encode "3g".toList) := by
  have dump : IsDump [0x3A, 0xBC] "«3a—Bc »".toList := isDump_iff.mpr (by decide +kernel)
  have left : strip (Utf8.decodeLossy (Utf8.encode "3—".toList ++ [0xFF, 0x30])) =
      ['3'] ++ Utf8.replacement :: ['0'] := by decide +kernel
  have stray : Hex.FirstStray (strip (Utf8.decodeLossy (Utf8.encode "3—".toList ++ [0xFF, 0x30])))
      Utf8.replacement 1 := by
    rw [left]
    exact .intro (List.forall_mem_singleton.mpr rfl) rfl
  have wording : "invalid character " ++ CharLiteral.quote Utf8.replacement ++ " at position " ++
      toString 1 = "invalid character '\uFFFD' at position 1" := by decide +kernel
  have allVisible : "3g".toList.all (fun c => !isSeparator c) = true := by decide +kernel
  have visible : ∀ c ∈ "3g".toList, isSeparator c = false := by
    intro c member
    simpa using List.all_eq_true.mp allVisible c member
  obtain ⟨read, -, -, reported, strict⟩ := dumps_are_read_exactly
  refine ⟨dump, (read _ _).mpr ⟨_, rfl, dump⟩, stray, ?_, visible, strict _ visible⟩
  rw [reported _ _ _ stray, wording]

end HexDump

end ByteListing
