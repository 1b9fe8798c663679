import ByteListing.Proofs.Dex.DeclaredCounts
import ByteListing.Proofs.Dex.SingleLines

/-! # Tables within the container

A header is accepted only if every table lies within the container, and this one check covers
whatever is read of the tables later: the record at any index of a table is there as a whole
(`holdsRecord_of_parse`), so its parts are read without fail, and nothing is read at an index that
the table does not have (`readEntry_outside`).  What the records refer to is not checked. -/
set_option autoImplicit false
namespace ByteListing.Dex

namespace Container

def tableOf (container : Container) : TableKind → Table
  | .strings => container.strings
  | .types => container.types
  | .protos => container.protos
  | .fields => container.fields
  | .methods => container.methods
  | .classes => container.classes

/-- Reads what stands at an index of a table, and forgets it. -/
def readEntry (container : Container) (kind : TableKind) (index : Nat) : Except Fault Unit :=
  match kind with
  | .strings => (container.stringAt index).map fun _ => ()
  | .types => (container.typeAt index).map fun _ => ()
  | .protos => (container.protoAt index).map fun _ => ()
  | .fields => (container.fieldText index).map fun _ => ()
  | .methods => (container.methodAt index).map fun _ => ()
  | .classes => (container.classAt index).map fun _ => ()

/-- The record at a position is read part by part, and what it refers to is all that is left to
read. -/
def ReadsRecord (container : Container) (index position : Nat) : TableKind → Prop
  | .strings => ∃ start, word32 container.data position = .ok start ∧
      container.stringAt index =
        (varint container.data start).bind fun units => textAt container.data units.2
  | .types => ∃ text, word32 container.data position = .ok text ∧
      container.typeAt index = container.stringAt text
  | .protos => ∃ shorty returnType start, word32 container.data position = .ok shorty ∧
      word32 container.data (position + 4) = .ok returnType ∧
      word32 container.data (position + 8) = .ok start ∧
      container.protoAt index = do
        let parameters ← container.parametersAt start
        return ⟨← container.stringAt shorty, ← container.typeAt returnType, parameters⟩
  | .fields => ∃ owner type name, half container.data position = .ok owner ∧
      half container.data (position + 2) = .ok type ∧
      word32 container.data (position + 4) = .ok name ∧
      container.fieldText index = do
        let owner ← container.typeAt owner
        let name ← container.stringAt name
        let type ← container.typeAt type
        return owner ++ "->" ++ name ++ ":" ++ type
  | .methods => ∃ owner proto name, half container.data position = .ok owner ∧
      half container.data (position + 2) = .ok proto ∧
      word32 container.data (position + 4) = .ok name ∧
      container.methodAt index = (container.stringAt name).map fun name => ⟨owner, proto, name⟩
  | .classes => ∃ type accessFlags superclass dataStart,
      word32 container.data position = .ok type ∧
      word32 container.data (position + 4) = .ok accessFlags ∧
      word32 container.data (position + 8) = .ok superclass ∧
      word32 container.data (position + 24) = .ok dataStart ∧
      container.classAt index = .ok ⟨type, accessFlags, superclass, dataStart⟩

/-- The record at an index of a table stands at a position as a whole. -/
structure HoldsRecord (container : Container) (kind : TableKind) (index position : Nat) :
    Prop where
  place : (container.tableOf kind).entry index = .ok position
  within : position + kind.entrySize ≤ container.data.length
  address : position + kind.entrySize < 2 ^ 64
  halves : ∀ offset, offset + 2 ≤ kind.entrySize →
    ∃ value < 2 ^ 16, half container.data (position + offset) = .ok value
  words : ∀ offset, offset + 4 ≤ kind.entrySize →
    ∃ value < 2 ^ 32, word32 container.data (position + offset) = .ok value
  reads : container.ReadsRecord index position kind

end Container

/-! ## The check of a header -/

structure Table.Within (table : Table) (kind : TableKind) (data : Bytes) : Prop where
  sameKind : table.kind = kind
  size : table.size < 2 ^ 32
  start : table.start < 2 ^ 32
  bound : table.start + table.size * kind.entrySize ≤ data.length

theorem within_of_table {data : Bytes} {kind : TableKind} {position : Nat} {table : Table}
    (read : Container.table data kind position = .ok table) : table.Within kind data := by
  obtain ⟨size, sizeRead, read⟩ := exists_of_bind_eq_ok read
  obtain ⟨start, startRead, read⟩ := exists_of_bind_eq_ok read
  split at read
  · rename_i bound
    obtain rfl := Except.ok.inj read
    exact ⟨rfl, (bound_of_word32 sizeRead).2, (bound_of_word32 startRead).2, bound⟩
  · cases read

theorem within_of_parse {data : Bytes} {container : Container}
    (accepted : Container.parse data = .ok container) :
    container.data = data ∧ ∀ kind, (container.tableOf kind).Within kind data := by
  rw [Container.parse] at accepted
  split at accepted
  · cases accepted
  · split at accepted
    · cases accepted
    · obtain ⟨-, -, accepted⟩ := exists_of_bind_eq_ok accepted
      obtain ⟨strings, stringsRead, accepted⟩ := exists_of_bind_eq_ok accepted
      obtain ⟨types, typesRead, accepted⟩ := exists_of_bind_eq_ok accepted
      obtain ⟨protos, protosRead, accepted⟩ := exists_of_bind_eq_ok accepted
      obtain ⟨fields, fieldsRead, accepted⟩ := exists_of_bind_eq_ok accepted
      obtain ⟨methods, methodsRead, accepted⟩ := exists_of_bind_eq_ok accepted
      obtain ⟨classes, classesRead, accepted⟩ := exists_of_bind_eq_ok accepted
      obtain rfl := Except.ok.inj accepted
      refine ⟨rfl, fun kind => ?_⟩
      cases kind with
      | strings => exact within_of_table stringsRead
      | types => exact within_of_table typesRead
      | protos => exact within_of_table protosRead
      | fields => exact within_of_table fieldsRead
      | methods => exact within_of_table methodsRead
      | classes => exact within_of_table classesRead

/-! ## Records -/

section Records

variable {data : Bytes} {position : Nat}

theorem exists_take (piece : Piece) {length : Nat} (bound : position + length ≤ data.length) :
    ∃ octets, octets.length = length ∧ take data piece length position = .ok octets := by
  have taken := (take_eq_ok_iff.mpr ⟨bound, rfl⟩ : take data piece length position = _)
  exact ⟨_, (bound_of_take taken).2, taken⟩

theorem exists_half (bound : position + 2 ≤ data.length) :
    ∃ value < 2 ^ 16, half data position = .ok value := by
  obtain ⟨octets, length, taken⟩ := exists_take .half bound
  have small := Bytes.littleEndian_lt octets
  rw [length] at small
  exact ⟨_, small, by rw [half, taken]; rfl⟩

theorem exists_word32 (bound : position + 4 ≤ data.length) :
    ∃ value < 2 ^ 32, word32 data position = .ok value := by
  obtain ⟨octets, length, taken⟩ := exists_take .word bound
  have small := Bytes.littleEndian_lt octets
  rw [length] at small
  exact ⟨_, small, by rw [word32, taken]; rfl⟩

end Records

namespace Container

variable {container : Container} {kind : TableKind} {index position : Nat}

theorem readsRecord (place : (container.tableOf kind).entry index = .ok position)
    (within : position + kind.entrySize ≤ container.data.length) :
    container.ReadsRecord index position kind := by
  have word (offset : Nat) (inside : offset + 4 ≤ kind.entrySize) :
      ∃ value, word32 container.data (position + offset) = .ok value := by
    have bound : position + offset + 4 ≤ container.data.length := by omega
    obtain ⟨value, -, read⟩ := exists_word32 bound
    exact ⟨value, read⟩
  have short (offset : Nat) (inside : offset + 2 ≤ kind.entrySize) :
      ∃ value, half container.data (position + offset) = .ok value := by
    have bound : position + offset + 2 ≤ container.data.length := by omega
    obtain ⟨value, -, read⟩ := exists_half bound
    exact ⟨value, read⟩
  cases kind with
  | strings =>
      obtain ⟨start, startRead⟩ := word 0 (by decide)
      rw [Nat.add_zero] at startRead
      refine ⟨start, startRead, ?_⟩
      simp only [tableOf] at place
      simp only [stringAt, place, startRead, bind, Except.bind]
  | types =>
      obtain ⟨text, textRead⟩ := word 0 (by decide)
      rw [Nat.add_zero] at textRead
      refine ⟨text, textRead, ?_⟩
      simp only [tableOf] at place
      simp only [typeAt, place, textRead, bind, Except.bind]
  | protos =>
      obtain ⟨shorty, shortyRead⟩ := word 0 (by decide)
      obtain ⟨returnType, returnRead⟩ := word 4 (by decide)
      obtain ⟨start, startRead⟩ := word 8 (by decide)
      rw [Nat.add_zero] at shortyRead
      refine ⟨shorty, returnType, start, shortyRead, returnRead, startRead, ?_⟩
      simp only [tableOf] at place
      simp only [protoAt, place, shortyRead, returnRead, startRead, bind, Except.bind]
  | fields =>
      obtain ⟨owner, ownerRead⟩ := short 0 (by decide)
      obtain ⟨type, typeRead⟩ := short 2 (by decide)
      obtain ⟨name, nameRead⟩ := word 4 (by decide)
      rw [Nat.add_zero] at ownerRead
      refine ⟨owner, type, name, ownerRead, typeRead, nameRead, ?_⟩
      simp only [tableOf] at place
      simp only [fieldText, place, ownerRead, typeRead, nameRead, bind, Except.bind]
  | methods =>
      obtain ⟨owner, ownerRead⟩ := short 0 (by decide)
      obtain ⟨proto, protoRead⟩ := short 2 (by decide)
      obtain ⟨name, nameRead⟩ := word 4 (by decide)
      rw [Nat.add_zero] at ownerRead
      refine ⟨owner, proto, name, ownerRead, protoRead, nameRead, ?_⟩
      simp only [tableOf] at place
      simp only [methodAt, place, ownerRead, protoRead, nameRead, bind, Except.bind]
      rfl
  | classes =>
      obtain ⟨type, typeRead⟩ := word 0 (by decide)
      obtain ⟨accessFlags, flagsRead⟩ := word 4 (by decide)
      obtain ⟨superclass, superclassRead⟩ := word 8 (by decide)
      obtain ⟨dataStart, startRead⟩ := word 24 (by decide)
      rw [Nat.add_zero] at typeRead
      refine ⟨type, accessFlags, superclass, dataStart, typeRead, flagsRead, superclassRead,
        startRead, ?_⟩
      simp only [tableOf] at place
      simp only [classAt, place, typeRead, flagsRead, superclassRead, startRead, bind,
        Except.bind]
      rfl

theorem holdsRecord_of_parse {data : Bytes} (accepted : parse data = .ok container)
    (inside : index < (container.tableOf kind).size) :
    container.HoldsRecord kind index
      ((container.tableOf kind).start + index * kind.entrySize) := by
  obtain ⟨rfl, allWithin⟩ := within_of_parse accepted
  obtain ⟨sameKind, sizeLt, startLt, bound⟩ := allWithin kind
  have place : (container.tableOf kind).entry index =
      .ok ((container.tableOf kind).start + index * kind.entrySize) := by
    rw [Table.entry, if_pos inside, sameKind]
  -- The record behind this one would start where this one ends, and the table ends no earlier.
  have nextLe : (index + 1) * kind.entrySize ≤ (container.tableOf kind).size * kind.entrySize :=
    Nat.mul_le_mul_right _ inside
  rw [Nat.add_mul, Nat.one_mul] at nextLe
  have entryLe : kind.entrySize ≤ 32 := by cases kind <;> decide
  have tableLe : (container.tableOf kind).size * kind.entrySize ≤ 2 ^ 32 * 32 :=
    Nat.mul_le_mul (Nat.le_of_lt sizeLt) entryLe
  have within : (container.tableOf kind).start + index * kind.entrySize + kind.entrySize ≤
      container.data.length := by omega
  exact ⟨place, within, by omega, fun offset part => exists_half (by omega),
    fun offset part => exists_word32 (by omega), readsRecord place within⟩

theorem readEntry_outside {data : Bytes} (accepted : parse data = .ok container)
    (outside : (container.tableOf kind).size ≤ index) :
    container.readEntry kind index = .error (.malformedContainer (container.tableOf kind).start
      (Flaw.tableIndex kind index (container.tableOf kind).size).describe) := by
  have failed : (container.tableOf kind).entry index = .error (.malformedContainer
      (container.tableOf kind).start
      (Flaw.tableIndex kind index (container.tableOf kind).size).describe) := by
    rw [Table.entry, if_neg (Nat.not_lt.mpr outside), ((within_of_parse accepted).2 kind).sameKind]
    rfl
  -- Every reader looks up the entry before anything else.
  cases kind <;> simp only [tableOf] at failed ⊢ <;>
    simp only [readEntry, stringAt, typeAt, protoAt, fieldText, methodAt, classAt, failed, bind,
      Except.bind, Except.map]

end Container

/-- In an accepted container every record of every table is there as a whole, and its parts are read
without fail, at addresses of less than 64 bits.  Behind the last record, reading fails with the
position of the table.  Methods, parameters and units are as many as the container tells, and no
more than there is room for. -/
theorem reads_within_accepted_container {data : Bytes} {container : Container}
    (accepted : Container.parse data = .ok container) :
    (∀ kind index, index < (container.tableOf kind).size →
      container.HoldsRecord kind index
        ((container.tableOf kind).start + index * kind.entrySize)) ∧
    (∀ kind index, (container.tableOf kind).size ≤ index →
      container.readEntry kind index = .error (.malformedContainer (container.tableOf kind).start
        (Flaw.tableIndex kind index (container.tableOf kind).size).describe)) ∧
    (∀ entry direct virtual,
      (container.classMethods entry = .ok (direct, virtual) ↔
        Declares data entry.dataStart direct virtual) ∧
      (Declares data entry.dataStart direct virtual →
        3 * (direct.length + virtual.length) ≤ data.length)) ∧
    (∀ index proto, container.protoAt index = .ok proto →
      2 * proto.parameters.length ≤ data.length) ∧
    (∀ start count, word32 data (start + 12) = .ok count → start + 16 + 2 * count ≤ data.length →
      ∃ units, container.codeUnits start = .ok units) ∧
    ∀ start units, container.codeUnits start = .ok units →
      word32 data (start + 12) = .ok units.length ∧ 2 * units.length ≤ data.length := by
  have same : container.data = data := (within_of_parse accepted).1
  refine ⟨?_, ?_, ?_, ?_, ?_, ?_⟩
  · intro kind index inside
    exact Container.holdsRecord_of_parse accepted inside
  · intro kind index outside
    exact Container.readEntry_outside accepted outside
  · intro entry direct virtual
    rw [classMethods_eq_ok_iff, same]
    exact ⟨Iff.rfl, Declares.length_le⟩
  · intro index proto read
    have bound := length_of_protoAt read
    rwa [same] at bound
  · intro start count told bound
    rw [← same] at told bound
    exact exists_codeUnits told bound
  · intro start units read
    obtain ⟨told, bound⟩ := length_of_codeUnits read
    rw [same] at told bound
    exact ⟨told, by omega⟩

/-- A class with one method, whose code has five units; there are no fields. -/
theorem reads_within_container_of_one_class :
    (referringTo "LB;").container.HoldsRecord .classes 0 164 ∧
    (referringTo "LB;").container.readEntry .fields 0 =
      .error (.malformedContainer 0 "field index 0 out of range (0 entries)") ∧
    Declares (referringTo "LB;").octets 254 [⟨0, 9, 228⟩] [] ∧ 3 * (1 + 0) ≤ 262 ∧
    (∃ proto, (referringTo "LB;").container.protoAt 0 = .ok proto ∧
      2 * proto.parameters.length ≤ 262) ∧
    word32 (referringTo "LB;").octets 240 = .ok 5 ∧ 2 * 5 ≤ 262 := by
  have length : (referringTo "LB;").octets.length = 262 := by decide +kernel
  have small : (referringTo "LB;").octets.length < 2 ^ 32 := by
    rw [length]
    decide
  obtain ⟨inside, outside, classes, protos, -, codes⟩ :=
    reads_within_accepted_container ((referringTo "LB;").parse_octets small)
  have declared : (referringTo "LB;").container.classMethods ⟨0, 1, 0xFFFFFFFF, 254⟩ =
      .ok ([⟨0, 9, 228⟩], []) := by decide +kernel
  have proto : (referringTo "LB;").container.protoAt 0 = .ok ⟨"V", "V", []⟩ := by decide +kernel
  have units : (referringTo "LB;").container.codeUnits 228 =
      .ok [0x001A, 0x0003, 0x001C, 0x0002, 0x000E] := by decide +kernel
  have declares := (classes _ _ _).1.mp declared
  rw [length] at classes protos codes
  exact ⟨inside .classes 0 (by decide +kernel), outside .fields 0 (by decide +kernel), declares,
    (classes _ _ _).2 declares, ⟨_, proto, protos 0 _ proto⟩, codes _ _ units⟩

end ByteListing.Dex
