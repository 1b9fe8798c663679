import ByteListing.Proofs.Bytes.Numbers
import ByteListing.Proofs.Wire.Field

/-! # The format of fields

What reading a field amounts to, whatever offset it is told.  The fields that can be written at
all are those in range (`exists_octets_iff`).  `read_iff_parse` separates the offset from the
reading: it only moves the position that a fault names, which is that of the tag or of the octet
behind it (`position_of_error`).

`read_exactly_octets` puts this together with the encodings of fields. -/
set_option autoImplicit false
namespace ByteListing.Wire

/-! ## Fields that can be written -/

/-- Numbers of the width that the wire type gives them, and payloads whose length is one. -/
def FieldValue.InRange : FieldValue → Prop
  | varint value => value < 2 ^ 64
  | fixed64 value => value < 2 ^ 64
  | lengthDelimited payload => payload.length < 2 ^ 64
  | fixed32 value => value < 2 ^ 32
  | startGroup | endGroup => True

def Field.InRange (field : Field) : Prop :=
  (1 ≤ field.number ∧ field.number ≤ 2 ^ 29 - 1) ∧ field.value.InRange

theorem WireType.code_lt (wireType : WireType) : wireType.code < 8 := by
  cases wireType <;> decide

theorem Varint.octets_groups {value : Nat} (small : value < 2 ^ 64) :
    Varint.Octets value (Base128.groups value) := by
  have few : (Base128.groups value).length ≤ 10 :=
    Base128.length_groups_le (by decide) (Nat.lt_trans small (by decide))
  refine ⟨Base128.terminated_groups value, few, ?_⟩
  rw [Base128.leastFirst_groups]
  exact Nat.mod_eq_of_lt small

theorem Varint.Octets.lt {value : Nat} {octets : Bytes} (written : Varint.Octets value octets) :
    value < 2 ^ 64 := by
  rw [← written.exact]
  exact Nat.mod_lt _ (by decide)

theorem FieldValue.exists_octets {value : FieldValue} (inRange : value.InRange) :
    ∃ octets, value.Octets octets := by
  cases value with
  | varint value => exact ⟨_, .varint (Varint.octets_groups inRange)⟩
  | fixed64 value =>
      have same : Bytes.littleEndian (Bytes.littleOctets 8 value) = value :=
        Bytes.littleEndian_littleOctets inRange
      rw [← same]
      exact ⟨_, .fixed64 (Bytes.length_littleOctets 8 value)⟩
  | lengthDelimited payload => exact ⟨_, .lengthDelimited (Varint.octets_groups inRange)⟩
  | startGroup => exact ⟨[], .startGroup⟩
  | endGroup => exact ⟨[], .endGroup⟩
  | fixed32 value =>
      have same : Bytes.littleEndian (Bytes.littleOctets 4 value) = value :=
        Bytes.littleEndian_littleOctets inRange
      rw [← same]
      exact ⟨_, .fixed32 (Bytes.length_littleOctets 4 value)⟩

theorem FieldValue.Octets.inRange {value : FieldValue} {octets : Bytes}
    (written : value.Octets octets) : value.InRange := by
  cases written with
  | varint varintWritten => exact varintWritten.lt
  | fixed64 size =>
      have bound := Bytes.littleEndian_lt octets
      rw [size] at bound
      exact bound
  | lengthDelimited sizeWritten => exact sizeWritten.lt
  | startGroup => trivial
  | endGroup => trivial
  | fixed32 size =>
      have bound := Bytes.littleEndian_lt octets
      rw [size] at bound
      exact bound

namespace Field

theorem exists_octets_iff (field : Field) : (∃ octets, field.Octets octets) ↔ field.InRange := by
  constructor
  · rintro ⟨octets, positive, small, -, valueWritten⟩
    exact ⟨⟨positive, small⟩, valueWritten.inRange⟩
  · rintro ⟨⟨positive, small⟩, inRange⟩
    have codeSmall := field.value.wireType.code_lt
    have tagSmall : 8 * field.number + field.value.wireType.code < 2 ^ 64 := by omega
    obtain ⟨value, valueWritten⟩ := FieldValue.exists_octets inRange
    exact ⟨_, .intro positive small (Varint.octets_groups tagSmall) valueWritten⟩

/-! ## The offset -/

theorem read_iff_parse {offset : Nat} {data : Bytes} {result : Field × Nat} :
    read offset data = .ok result ↔ parse data = .ok result := by
  rw [read]
  cases parse data with
  | ok found => simp
  | error flaw => simp

theorem position_of_error {data : Bytes} {position : Nat} {flaw : Flaw}
    (failed : parse data = .error (position, flaw)) :
    position = 0 ∨ ∃ value tag rest, data = tag ++ rest ∧ Varint.Octets value tag ∧
      position = tag.length := by
  rw [parse] at failed
  split at failed
  · cases failed
    exact .inl rfl
  · rename_i number wireType tagLength tagRead
    obtain ⟨tag, rest, whole, size, -, -, written⟩ := octets_of_parseTag tagRead
    split at failed
    · cases failed
      exact .inr ⟨_, tag, rest, whole, written, size.symm⟩
    · cases failed

theorem position_of_fault {offset : Nat} {data : Bytes} {fault : Fault}
    (failed : read offset data = .error fault) :
    ∃ details, fault = .malformedField offset details ∨
      ∃ value tag rest, data = tag ++ rest ∧ Varint.Octets value tag ∧
        fault = .malformedField (offset + tag.length) details := by
  rw [read] at failed
  split at failed
  · cases failed
  · rename_i position flaw parseFailed
    cases failed
    refine ⟨flaw.describe, ?_⟩
    rcases position_of_error parseFailed with rfl | ⟨value, tag, rest, whole, written, rfl⟩
    · exact .inl rfl
    · exact .inr ⟨value, tag, rest, whole, written, rfl⟩

/-! ## Reading and encodings -/

theorem read_append {field : Field} {octets : Bytes} (written : field.Octets octets)
    (offset : Nat) (rest : Bytes) : read offset (octets ++ rest) = .ok (field, octets.length) :=
  read_iff_parse.mpr (parse_append written rest)

theorem parseAll_encodings (written : List (Field × Bytes))
    (encoded : ∀ entry ∈ written, entry.1.Octets entry.2) :
    parseAll (written.flatMap Prod.snd) =
      (written.map fun entry => (entry.1, entry.2.length), []) := by
  induction written with
  | nil =>
      rw [List.flatMap_nil, parseAll]
      rfl
  | cons entry others inductionHypothesis =>
      have first := encoded entry (List.mem_cons_self ..)
      have later := inductionHypothesis fun other member =>
        encoded other (List.mem_cons_of_mem entry member)
      rw [List.flatMap_cons, parseAll_cons first, later]
      rfl

/-- Reading decodes exactly the encodings of fields.  Every field in range can be written, and
from whatever it is written in and whatever follows, at every offset, it is read back with the
length of its encoding.  What is read was written so in the first octets of the input, and
what stands behind them can be cut off or exchanged.  The offset plays no part in that: a fault
names it, or the position of the value behind it.  Fields that are written one after the other
are read until the input is used up. -/
theorem read_exactly_octets :
    (∀ field : Field, (∃ octets, field.Octets octets) ↔ field.InRange) ∧
    (∀ (field : Field) (octets rest : Bytes) (offset : Nat), field.Octets octets →
      read offset (octets ++ rest) = .ok (field, octets.length)) ∧
    (∀ (offset : Nat) (data : Bytes) (field : Field) (length : Nat),
      read offset data = .ok (field, length) →
      (∃ octets rest, data = octets ++ rest ∧ octets.length = length ∧ field.Octets octets) ∧
      1 ≤ length ∧ length ≤ data.length ∧
      read offset (data.take length) = .ok (field, length) ∧
      ∀ extra, read offset (data ++ extra) = .ok (field, length)) ∧
    (∀ (offset other : Nat) (data : Bytes) (result : Field × Nat),
      read offset data = .ok result ↔ read other data = .ok result) ∧
    (∀ (offset : Nat) (data : Bytes) (fault : Fault), read offset data = .error fault →
      ∃ details, fault = .malformedField offset details ∨
        ∃ value tag rest, data = tag ++ rest ∧ Varint.Octets value tag ∧
          fault = .malformedField (offset + tag.length) details) ∧
    (∀ written : List (Field × Bytes), (∀ entry ∈ written, entry.1.Octets entry.2) →
      parseAll (written.flatMap Prod.snd) =
        (written.map fun entry => (entry.1, entry.2.length), [])) := by
  refine ⟨exists_octets_iff, ?_, ?_, ?_, ?_, parseAll_encodings⟩
  · intro field octets rest offset written
    exact read_append written offset rest
  · intro offset data field length success
    obtain ⟨octets, rest, rfl, rfl, written⟩ := octets_of_parse (read_iff_parse.mp success)
    have cut : (octets ++ rest).take octets.length = octets ++ [] := by
      rw [List.take_left, List.append_nil]
    refine ⟨⟨octets, rest, rfl, rfl, written⟩, written.length_pos, ?_, ?_, ?_⟩
    · rw [List.length_append]
      omega
    · rw [cut]
      exact read_append written offset []
    · intro extra
      rw [List.append_assoc]
      exact read_append written offset (rest ++ extra)
  · intro offset other data result
    rw [read_iff_parse, read_iff_parse]
  · intro offset data fault failed
    exact position_of_fault failed

/-- A tag and a value with a group more than they need. -/
theorem read_padded_field :
    Octets ⟨1, .varint 300⟩ [0x88, 0x00, 0xAC, 0x82, 0x00] ∧
    read 7 [0x88, 0x00, 0xAC, 0x82, 0x00, 0xFF] = .ok (⟨1, .varint 300⟩, 5) := by
  have tag : Varint.Octets 8 [0x88, 0x00] := ⟨.more rfl (.last rfl), by decide, by decide⟩
  have value : Varint.Octets 300 [0xAC, 0x82, 0x00] :=
    ⟨.more rfl (.more rfl (.last rfl)), by decide, by decide⟩
  have written : Octets ⟨1, .varint 300⟩ ([0x88, 0x00] ++ [0xAC, 0x82, 0x00]) :=
    .intro (by decide) (by decide) tag (.varint value)
  exact ⟨written, read_exactly_octets.2.1 _ _ [0xFF] 7 written⟩

end Field

end ByteListing.Wire
