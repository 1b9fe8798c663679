import ByteListing.Proofs.Bytes.Base128
import ByteListing.Wire.Field

/-! # The encodings of fields

Which octets encode a field, told from the field and without a reader, and that the reader
accepts exactly these: what was written is read back whatever follows it (`parse_append`), and
what is read was written that way (`octets_of_parse`).  Varints may be padded up to ten
octets and stand for their value modulo `2 ^ 64`.

`Sequence` strings encodings together.  Reading all fields of an input splits it into such a
sequence and a remainder at which no field starts. -/
set_option autoImplicit false
namespace ByteListing.Wire

/-! ## Varints -/

namespace Varint

structure Octets (value : Nat) (octets : Bytes) : Prop where
  terminated : Base128.Terminated octets
  short : octets.length ≤ maxLength
  exact : Base128.leastFirst octets % Nat.pow 2 64 = value

theorem decode?_append {value : Nat} {octets : Bytes} (written : Octets value octets)
    (rest : Bytes) : decode? (octets ++ rest) = some (value, octets.length) := by
  rw [decode?, Base128.splitGroups_append written.terminated written.short, Option.map_some]
  exact congrArg (fun number => some (number, octets.length)) written.exact

theorem octets_of_decode? {data : Bytes} {value length : Nat}
    (success : decode? data = some (value, length)) :
    ∃ octets rest, data = octets ++ rest ∧ octets.length = length ∧ Octets value octets := by
  obtain ⟨⟨octets, rest⟩, split, equal⟩ := Option.map_eq_some_iff.mp success
  obtain ⟨rfl, rfl⟩ := Prod.mk.inj equal
  obtain ⟨whole, terminated, short⟩ := Base128.splitGroups_iff.mp split
  exact ⟨octets, rest, whole, rfl, terminated, short, rfl⟩

theorem Octets.length_pos {value : Nat} {octets : Bytes} (written : Octets value octets) :
    0 < octets.length :=
  List.length_pos_iff.mpr written.terminated.ne_nil

end Varint

/-! ## Values -/

inductive FieldValue.Octets : FieldValue → Bytes → Prop
  | varint {value : Nat} {octets : Bytes} :
      Varint.Octets value octets → Octets (.varint value) octets
  | fixed64 {octets : Bytes} :
      octets.length = 8 → Octets (.fixed64 octets.littleEndian) octets
  | lengthDelimited {payload size : Bytes} :
      Varint.Octets payload.length size → Octets (.lengthDelimited payload) (size ++ payload)
  | startGroup : Octets .startGroup []
  | endGroup : Octets .endGroup []
  | fixed32 {octets : Bytes} :
      octets.length = 4 → Octets (.fixed32 octets.littleEndian) octets

namespace Field

theorem parseValue_append {value : FieldValue} {octets : Bytes} (written : value.Octets octets)
    (rest : Bytes) :
    parseValue value.wireType (octets ++ rest) = .ok (value, octets.length) := by
  cases written with
  | varint varintWritten =>
      simp only [FieldValue.wireType, parseValue, Varint.decode?_append varintWritten]
  | fixed64 size =>
      have enough : 8 ≤ (octets ++ rest).length := by
        rw [List.length_append]
        omega
      have taken : (octets ++ rest).take 8 = octets := List.take_left' size
      simp only [FieldValue.wireType, parseValue, if_pos enough, taken, size]
  | @lengthDelimited payload size sizeWritten =>
      have enough : payload.length ≤ (payload ++ rest).length := by
        rw [List.length_append]
        omega
      simp only [FieldValue.wireType, parseValue, List.append_assoc,
        Varint.decode?_append sizeWritten, List.drop_left, if_pos enough, List.take_left]
      rw [List.length_append]
  | startGroup => rfl
  | endGroup => rfl
  | fixed32 size =>
      have enough : 4 ≤ (octets ++ rest).length := by
        rw [List.length_append]
        omega
      have taken : (octets ++ rest).take 4 = octets := List.take_left' size
      simp only [FieldValue.wireType, parseValue, if_pos enough, taken, size]

theorem octets_of_parseValue {wireType : WireType} {data : Bytes} {value : FieldValue}
    {length : Nat} (success : parseValue wireType data = .ok (value, length)) :
    ∃ octets rest, data = octets ++ rest ∧ octets.length = length ∧
      value.wireType = wireType ∧ value.Octets octets := by
  cases wireType with
  | varint =>
      simp only [parseValue] at success
      split at success
      · rename_i number size decoded
        obtain ⟨octets, rest, rfl, rfl, written⟩ := Varint.octets_of_decode? decoded
        obtain ⟨rfl, rfl⟩ := Prod.mk.inj (Except.ok.inj success)
        exact ⟨octets, rest, rfl, rfl, rfl, .varint written⟩
      · cases success
  | fixed64 =>
      simp only [parseValue] at success
      split at success
      · rename_i enough
        obtain ⟨rfl, rfl⟩ := Prod.mk.inj (Except.ok.inj success)
        have size : (data.take 8).length = 8 := List.length_take_of_le enough
        exact ⟨data.take 8, data.drop 8, (List.take_append_drop 8 data).symm, size, rfl,
          .fixed64 size⟩
      · cases success
  | lengthDelimited =>
      simp only [parseValue] at success
      split at success
      · cases success
      · rename_i size sizeLength decoded
        obtain ⟨sizeOctets, contents, rfl, rfl, written⟩ := Varint.octets_of_decode? decoded
        rw [List.drop_left] at success
        split at success
        · rename_i enough
          obtain ⟨rfl, rfl⟩ := Prod.mk.inj (Except.ok.inj success)
          have taken : (contents.take size).length = size := List.length_take_of_le enough
          rw [← taken] at written
          refine ⟨sizeOctets ++ contents.take size, contents.drop size, ?_, ?_, rfl,
            .lengthDelimited written⟩
          · rw [List.append_assoc, List.take_append_drop]
          · rw [List.length_append, taken]
        · cases success
  | startGroup =>
      obtain ⟨rfl, rfl⟩ := Prod.mk.inj (Except.ok.inj success)
      exact ⟨[], data, rfl, rfl, rfl, .startGroup⟩
  | endGroup =>
      obtain ⟨rfl, rfl⟩ := Prod.mk.inj (Except.ok.inj success)
      exact ⟨[], data, rfl, rfl, rfl, .endGroup⟩
  | fixed32 =>
      simp only [parseValue] at success
      split at success
      · rename_i enough
        obtain ⟨rfl, rfl⟩ := Prod.mk.inj (Except.ok.inj success)
        have size : (data.take 4).length = 4 := List.length_take_of_le enough
        exact ⟨data.take 4, data.drop 4, (List.take_append_drop 4 data).symm, size, rfl,
          .fixed32 size⟩
      · cases success

end Field

/-! ## Fields -/

def WireType.code : WireType → Nat
  | varint => 0
  | fixed64 => 1
  | lengthDelimited => 2
  | startGroup => 3
  | endGroup => 4
  | fixed32 => 5

theorem WireType.ofCode?_iff {code : Nat} {wireType : WireType} :
    WireType.ofCode? code = some wireType ↔ code = wireType.code := by
  constructor
  · intro found
    unfold ofCode? at found
    split at found <;> first | cases found; rfl | cases found
  · rintro rfl
    cases wireType <;> rfl

/-- The octets that a field can be written in: a tag and a value. -/
inductive Field.Octets (field : Field) : Bytes → Prop
  | intro {tag value : Bytes} : 0 < field.number → field.number ≤ Field.maxNumber →
      Varint.Octets (8 * field.number + field.value.wireType.code) tag →
      field.value.Octets value → Field.Octets field (tag ++ value)

namespace Field

theorem parseTag_append {number : Nat} {wireType : WireType} (positive : 0 < number)
    (small : number ≤ maxNumber) {tag : Bytes}
    (written : Varint.Octets (8 * number + wireType.code) tag) (rest : Bytes) :
    parseTag (tag ++ rest) = .ok (number, wireType, tag.length) := by
  have codeSmall : wireType.code < 8 := by cases wireType <;> decide
  have low : (8 * number + wireType.code) % 8 = wireType.code := by omega
  have high : (8 * number + wireType.code) / 8 = number := by omega
  have valid : ¬ (number = 0 ∨ maxNumber < number) := by omega
  rw [parseTag, Bytes.isEmpty_append written.length_pos]
  simp only [Bool.false_eq_true, if_false, Varint.decode?_append written, low, high,
    WireType.ofCode?_iff.mpr rfl, if_neg valid]

theorem octets_of_parseTag {data : Bytes} {number length : Nat} {wireType : WireType}
    (success : parseTag data = .ok (number, wireType, length)) :
    ∃ tag rest, data = tag ++ rest ∧ tag.length = length ∧ 0 < number ∧ number ≤ maxNumber ∧
      Varint.Octets (8 * number + wireType.code) tag := by
  rw [parseTag] at success
  split at success
  · cases success
  · split at success
    · cases success
    · rename_i value size decoded
      obtain ⟨tag, rest, rfl, rfl, written⟩ := Varint.octets_of_decode? decoded
      split at success
      · cases success
      · rename_i found known
        split at success
        · cases success
        · rename_i valid
          simp only [Except.ok.injEq, Prod.mk.injEq] at success
          obtain ⟨rfl, rfl, rfl⟩ := success
          have code := WireType.ofCode?_iff.mp known
          have whole : 8 * (value / 8) + found.code = value := by omega
          exact ⟨tag, rest, rfl, rfl, by omega, by omega, by rwa [whole]⟩

/-- A field is read back from any of its octets, whatever follows them. -/
theorem parse_append {field : Field} {octets : Bytes} (written : field.Octets octets)
    (rest : Bytes) : parse (octets ++ rest) = .ok (field, octets.length) := by
  obtain ⟨positive, small, tagWritten, valueWritten⟩ := written
  rw [List.append_assoc, parse, parseTag_append positive small tagWritten]
  simp only [List.drop_left, parseValue_append valueWritten, List.length_append]

theorem octets_of_parse {data : Bytes} {field : Field} {length : Nat}
    (success : parse data = .ok (field, length)) :
    ∃ octets rest, data = octets ++ rest ∧ octets.length = length ∧ field.Octets octets := by
  rw [parse] at success
  split at success
  · cases success
  · rename_i number wireType tagLength tagRead
    obtain ⟨tag, contents, rfl, rfl, positive, small, tagWritten⟩ := octets_of_parseTag tagRead
    rw [List.drop_left] at success
    split at success
    · cases success
    · rename_i value valueLength valueRead
      obtain ⟨valueOctets, rest, rfl, rfl, rfl, valueWritten⟩ :=
        octets_of_parseValue valueRead
      obtain ⟨rfl, rfl⟩ := Prod.mk.inj (Except.ok.inj success)
      refine ⟨tag ++ valueOctets, rest, ?_, ?_, .intro positive small tagWritten valueWritten⟩
      · rw [List.append_assoc]
      · rw [List.length_append]

theorem Octets.length_pos {field : Field} {octets : Bytes} (written : field.Octets octets) :
    0 < octets.length := by
  obtain ⟨_, _, tagWritten, _⟩ := written
  have tagLengthPos := tagWritten.length_pos
  rw [List.length_append]
  omega

theorem parse_eq_iff_octets {field : Field} {octets : Bytes} :
    parse octets = .ok (field, octets.length) ↔ field.Octets octets := by
  constructor
  · intro success
    obtain ⟨taken, rest, rfl, size, written⟩ := octets_of_parse success
    have nothing : rest = [] := by
      rw [List.length_append] at size
      exact List.length_eq_zero_iff.mp (by omega)
    rwa [nothing, List.append_nil]
  · intro written
    have success := parse_append written []
    rwa [List.append_nil] at success

/-! ## Sequences of fields -/

inductive Sequence : List Field → Bytes → Prop
  | nil : Sequence [] []
  | cons {field : Field} {octets : Bytes} {fields : List Field} {data : Bytes} :
      field.Octets octets → Sequence fields data → Sequence (field :: fields) (octets ++ data)

theorem parseAll_nil : parseAll [] = ([], []) := by
  rw [parseAll]
  rfl

theorem parseAll_cons {field : Field} {octets : Bytes} (written : field.Octets octets)
    (rest : Bytes) :
    parseAll (octets ++ rest) =
      ((field, octets.length) :: (parseAll rest).1, (parseAll rest).2) := by
  have positive := written.length_pos
  have inside := Bytes.bounds_append positive rest
  rw [parseAll, Bytes.isEmpty_append positive, parse_append written]
  simp only [Bool.false_eq_true, if_false, dif_pos inside, List.drop_left]

/-- Fields in front of an input are read first, and the rest as if it stood alone. -/
theorem parseAll_append {fields : List Field} {data : Bytes} (sequence : Sequence fields data)
    (rest : Bytes) :
    ((parseAll (data ++ rest)).1.map Prod.fst, (parseAll (data ++ rest)).2) =
      (fields ++ (parseAll rest).1.map Prod.fst, (parseAll rest).2) := by
  induction sequence with
  | nil => rfl
  | @cons field octets fields data written _ inductionHypothesis =>
      obtain ⟨laterFields, laterRest⟩ := Prod.mk.inj inductionHypothesis
      rw [List.append_assoc, parseAll_cons written]
      simp only [List.map_cons, laterFields, laterRest, List.cons_append]

theorem sequence_of_parseAll (data : Bytes) :
    ∃ front, data = front ++ (parseAll data).2 ∧
      Sequence ((parseAll data).1.map Prod.fst) front := by
  fun_induction parseAll data with
  | case1 data empty => exact ⟨[], List.isEmpty_iff.mp empty, .nil⟩
  | case2 data occupied flaw failed => exact ⟨[], rfl, .nil⟩
  | case3 data occupied field length success inside following inductionHypothesis =>
      obtain ⟨octets, rest, whole, size, written⟩ := octets_of_parse success
      obtain ⟨front, split, sequence⟩ := inductionHypothesis
      have dropped : data.drop length = rest := by rw [whole, ← size, List.drop_left]
      refine ⟨octets ++ front, ?_, .cons written sequence⟩
      rw [List.append_assoc, ← split, dropped, whole]
  | case4 data occupied field length success outside => exact ⟨[], rfl, .nil⟩

end Field

end ByteListing.Wire
