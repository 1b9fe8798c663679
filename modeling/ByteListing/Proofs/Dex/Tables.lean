import ByteListing.Proofs.Dex.Regions

/-! # Tables read back

The header of a container that was laid out is accepted and gives its tables (`parse_octets`).
From them every index within its bounds is read as what it stands for, and no other index is:
references are resolved as by the contents themselves (`pool_container`). -/
set_option autoImplicit false
namespace ByteListing.Dex

open ByteListing.Bytes (littleOctets length_littleOctets)

/-! ## Tables and their bounds -/

def Fails {Value : Type} (result : Except Fault Value) : Prop := ∃ fault, result = .error fault

theorem Fails.bind {Value Next : Type} {result : Except Fault Value} (fails : Fails result)
    (next : Value → Except Fault Next) : Fails (result >>= next) := by
  obtain ⟨fault, rfl⟩ := fails
  exact ⟨fault, rfl⟩

theorem Table.entry_placed {kind : TableKind} {size start index : Nat} (inside : index < size) :
    (Table.placed kind size start).entry index = .ok (start + index * kind.entrySize) := by
  have occupied : ¬ size = 0 := by omega
  simp only [Table.entry, Table.placed, inside, occupied, if_true, if_false]

theorem Table.entry_outside {kind : TableKind} {size start index : Nat} (outside : size ≤ index) :
    Fails ((Table.placed kind size start).entry index) := by
  have notInside : ¬ index < size := Nat.not_lt.mpr outside
  simp only [Table.entry, Table.placed, notInside, if_false]
  exact ⟨_, rfl⟩

theorem toOption_of_bounds {Item : Type} {items : List Item} {read : Nat → Except Fault String}
    {text : Item → String}
    (inside : ∀ index : Fin items.length, read index = .ok (text items[index]))
    (outside : ∀ index, items.length ≤ index → Fails (read index)) (index : Nat) :
    (read index).toOption = items[index]?.map text := by
  by_cases within : index < items.length
  · have success : read index = .ok (text items[index]) := inside ⟨index, within⟩
    rw [success, List.getElem?_eq_getElem within]
    rfl
  · obtain ⟨fault, failure⟩ := outside index (Nat.le_of_not_lt within)
    rw [failure, List.getElem?_eq_none (Nat.le_of_not_lt within)]
    rfl

namespace Contents

variable (contents : Contents)

/-! ## The header -/

def container : Container where
  data := contents.octets
  strings := .placed .strings contents.strings.length contents.stringsStart
  types := .placed .types contents.types.length contents.typesStart
  protos := .placed .protos contents.protos.length contents.protosStart
  fields := .placed .fields contents.fields.length contents.fieldsStart
  methods := .placed .methods contents.methods.length contents.methodsStart
  classes := .placed .classes contents.classes.length contents.classesStart

theorem data_container : contents.container.data = contents.octets := rfl

theorem holds_table {index : Nat} {table : Table} (found : contents.tables[index]? = some table) :
    Holds contents.octets (0x38 + index * 8) table.octets := by
  have sizes (table : Table) : table.octets.length = 8 := by simp [Table.octets]
  have held := contents.regions.header.behind.behind.behind.behind.behind.front.entry sizes found
  simpa using held

theorem holds_order : Holds contents.octets 0x28 (littleOctets 4 0x12345678) := by
  have held := contents.regions.header.behind.behind.behind.front
  simpa using held

theorem hasMagic_octets : Container.hasMagic contents.octets = true := rfl

theorem length_octets :
    contents.octets.length = Container.headerSize + contents.body.length := by
  rw [octets, List.length_append, length_header]

theorem checkOrder_octets : Container.checkOrder contents.octets = .ok () := by
  have read := word32_of_holds contents.holds_order (by decide)
  simp only [Container.checkOrder, read, bind, Except.bind]
  rfl

section Small

variable (small : contents.octets.length < 2 ^ 32)
include small

theorem table_octets (index : Nat) {position : Nat} {kind : TableKind} {size start : Nat}
    (place : position = 0x38 + index * 8)
    (found : contents.tables[index]? = some (.placed kind size start))
    (within : start + size * kind.entrySize ≤ contents.octets.length) :
    Container.table contents.octets kind position = .ok (.placed kind size start) := by
  have held := contents.holds_table found
  rw [← place] at held
  have entryPositive : 0 < kind.entrySize := by cases kind <;> decide
  have sizeLe : size ≤ size * kind.entrySize := Nat.le_mul_of_pos_right size entryPositive
  -- An empty table is told to be at zero, which lies within the container as well.
  have toldLe : (if size = 0 then 0 else start) ≤ start := by
    split
    · exact Nat.zero_le start
    · exact Nat.le_refl start
  have readSize := word32_of_holds held.front (by simp only [Table.placed]; omega)
  have startHeld := held.behind_octets
  have readStart := word32_of_holds startHeld (by simp only [Table.placed]; omega)
  have inside : (if size = 0 then 0 else start) + size * kind.entrySize ≤
      contents.octets.length := by omega
  simp only [Table.placed] at readSize readStart
  simp only [Container.table, readSize, readStart, bind, Except.bind, inside, if_true]
  rfl

theorem parse_octets : Container.parse contents.octets = .ok contents.container := by
  have regions := contents.regions
  have longEnough : ¬ contents.octets.length < Container.headerSize := by
    rw [length_octets]
    omega
  have stringsWithin := regions.strings.bound
  have typesWithin := regions.types.bound
  have protosWithin := regions.protos.bound
  have fieldsWithin := regions.fields.bound
  have methodsWithin := regions.methods.bound
  have classesWithin := regions.classes.bound
  rw [length_stringTable] at stringsWithin
  rw [length_typeTable] at typesWithin
  rw [length_protoTable] at protosWithin
  rw [length_fieldTable] at fieldsWithin
  rw [length_methodTable] at methodsWithin
  rw [length_classTable] at classesWithin
  have strings : Container.table contents.octets .strings 0x38 = .ok contents.container.strings :=
    contents.table_octets small 0 rfl rfl stringsWithin
  have types : Container.table contents.octets .types 0x40 = .ok contents.container.types :=
    contents.table_octets small 1 rfl rfl typesWithin
  have protos : Container.table contents.octets .protos 0x48 = .ok contents.container.protos :=
    contents.table_octets small 2 rfl rfl protosWithin
  have fields : Container.table contents.octets .fields 0x50 = .ok contents.container.fields :=
    contents.table_octets small 3 rfl rfl fieldsWithin
  have methods : Container.table contents.octets .methods 0x58 = .ok contents.container.methods :=
    contents.table_octets small 4 rfl rfl methodsWithin
  have classes : Container.table contents.octets .classes 0x60 = .ok contents.container.classes :=
    contents.table_octets small 5 rfl rfl classesWithin
  simp only [Container.parse, longEnough, hasMagic_octets, checkOrder_octets, strings, types,
    protos, fields, methods, classes, bind, Except.bind]
  rfl

/-! ## Entries -/

theorem stringAt_container (index : Fin contents.strings.length) :
    contents.container.stringAt index = .ok (contents.string index) := by
  have listed : contents.strings[index.val]? = some (contents.string index) :=
    List.getElem?_eq_getElem index.isLt
  obtain ⟨⟨text, start⟩, placed, shown⟩ := getElem?_placed contents.map_placedStrings listed
  obtain rfl : text = contents.string index := shown
  have sizes (text : String × Nat) : (littleOctets 4 text.2).length = 4 := length_littleOctets 4 _
  have told := contents.regions.strings.entry sizes placed
  have stands := holds_of_mem_atOnce contents.regions.stringData (List.mem_of_getElem? placed)
  simp only at stands
  have bound := stands.bound
  -- Nothing is done with the number of units, but it has to be small enough to be read.
  have unitsLe := Mutf8.length_units_le (contents.string index).toList
  simp only [stringItem, List.length_append] at bound
  have entry : contents.container.strings.entry index =
      .ok (contents.stringsStart + index * 4) := Table.entry_placed index.isLt
  have readStart : word32 contents.octets (contents.stringsStart + index * 4) = .ok start :=
    word32_of_holds told (by omega)
  have readLength := varint_of_holds stands.front (by omega)
  have readText := textAt_of_holds stands.behind
  simp only [Container.stringAt, entry, data_container, readStart, readLength, bind, Except.bind]
  exact readText

theorem string_small (index : Fin contents.strings.length) : index.val < 2 ^ 32 := by
  have bound := contents.regions.strings.bound
  rw [length_stringTable] at bound
  omega

theorem type_small (index : Fin contents.types.length) : index.val < 2 ^ 32 := by
  have bound := contents.regions.types.bound
  rw [length_typeTable] at bound
  omega

theorem typeAt_container (index : Fin contents.types.length) :
    contents.container.typeAt index = .ok (contents.descriptor index) := by
  have listed : contents.types[index.val]? = some contents.types[index] :=
    List.getElem?_eq_getElem index.isLt
  have sizes (text : Fin contents.strings.length) : (littleOctets 4 text.val).length = 4 :=
    length_littleOctets 4 _
  have told := contents.regions.types.entry sizes listed
  have read := word32_of_holds told (contents.string_small small _)
  have entry : contents.container.types.entry index =
      .ok (contents.typesStart + index * 4) := Table.entry_placed index.isLt
  simp only [Container.typeAt, entry, data_container, read, bind, Except.bind]
  exact contents.stringAt_container small _

theorem typeList_container {types : List (HalfIndex contents.types.length)} {position : Nat}
    (held : Holds contents.octets position (types.flatMap fun type => littleOctets 2 type.val)) :
    contents.container.typeList types.length position =
      .ok (types.map fun type => contents.descriptor (widen type)) := by
  induction types generalizing position with
  | nil => rfl
  | cons type rest inductionHypothesis =>
      rw [List.flatMap_cons] at held
      have read := half_of_holds held.front (half_small type)
      have behind := held.behind_octets
      have named : contents.container.typeAt type.val = .ok (contents.descriptor (widen type)) :=
        contents.typeAt_container small (widen type)
      simp only [List.length_cons, Container.typeList, data_container, read, named,
        inductionHypothesis behind, bind, Except.bind]
      rfl

theorem parametersAt_container
    {proto : ProtoItem contents.strings.length contents.types.length} {start : Nat}
    (stands : Stands contents.octets proto.parameterList? start) :
    contents.container.parametersAt start = .ok (contents.prototype proto).parameters := by
  rw [ProtoItem.parameterList?] at stands
  by_cases noneListed : proto.parameters = []
  · rw [if_pos noneListed] at stands
    obtain rfl : start = 0 := stands
    rw [Container.parametersAt, if_pos rfl, prototype, noneListed]
    rfl
  · rw [if_neg noneListed] at stands
    obtain ⟨positive, held⟩ := stands
    have sizes (type : HalfIndex contents.types.length) : (littleOctets 2 type.val).length = 2 :=
      length_littleOctets 2 _
    have bound := held.bound
    rw [List.length_append, length_flatMap_of_sizes sizes] at bound
    have read := word32_of_holds held.front (by omega)
    have behind := held.behind_octets
    rw [Container.parametersAt, if_neg (by omega), data_container, read]
    exact contents.typeList_container small behind

theorem protoAt_container (index : Fin contents.protos.length) :
    contents.container.protoAt index = .ok (contents.prototype contents.protos[index]) := by
  have listed : contents.protos[index.val]? = some contents.protos[index] :=
    List.getElem?_eq_getElem index.isLt
  obtain ⟨⟨proto, start⟩, placed, shown⟩ := getElem?_placed contents.map_placedProtos listed
  simp only at shown
  rw [← shown]
  have told := contents.regions.protos.entry (fun proto => proto.1.length_octets proto.2) placed
  have stands := stands_of_mem_aligned contents.parametersStart_pos contents.regions.parameters
    (List.mem_of_getElem? placed)
  simp only at told stands
  have startLe := stands.start_le
  have behindShorty := told.behind_octets
  have behindReturn := behindShorty.behind_octets
  have readShorty := word32_of_holds told.front (contents.string_small small _)
  have readReturn := word32_of_holds behindShorty.front (contents.type_small small _)
  have readStart : word32 contents.octets (contents.protosStart + index * 12 + 8) = .ok start :=
    word32_of_holds behindReturn (by omega)
  have entry : contents.container.protos.entry index =
      .ok (contents.protosStart + index * 12) := Table.entry_placed index.isLt
  simp only [Container.protoAt, entry, data_container, readShorty, readReturn, readStart,
    contents.parametersAt_container small stands, contents.stringAt_container small,
    contents.typeAt_container small, bind, Except.bind]
  rfl

theorem methodAt_container (index : Fin contents.methods.length) :
    contents.container.methodAt index = .ok ⟨contents.methods[index].owner.val,
      contents.methods[index].proto.val, contents.string contents.methods[index].name⟩ := by
  have listed : contents.methods[index.val]? = some contents.methods[index] :=
    List.getElem?_eq_getElem index.isLt
  have told := contents.regions.methods.entry MethodItem.length_octets listed
  have behindOwner := told.behind_octets
  have behindProto := behindOwner.behind_octets
  have readOwner := half_of_holds told.front (half_small _)
  have readProto := half_of_holds behindOwner.front (half_small _)
  have readName : word32 contents.octets (contents.methodsStart + index * 8 + 4) =
      .ok contents.methods[index].name.val :=
    word32_of_holds behindProto (contents.string_small small _)
  have entry : contents.container.methods.entry index =
      .ok (contents.methodsStart + index * 8) := Table.entry_placed index.isLt
  simp only [Container.methodAt, entry, data_container, readOwner, readProto, readName,
    contents.stringAt_container small, bind, Except.bind]
  rfl

/-! ## References -/

theorem protoText_container (index : Fin contents.protos.length) :
    contents.container.protoText index = .ok (contents.protoText contents.protos[index]) := by
  simp only [Container.protoText, contents.protoAt_container small, bind, Except.bind]
  rfl

theorem fieldText_container (index : Fin contents.fields.length) :
    contents.container.fieldText index = .ok (contents.fieldText contents.fields[index]) := by
  have listed : contents.fields[index.val]? = some contents.fields[index] :=
    List.getElem?_eq_getElem index.isLt
  have told := contents.regions.fields.entry FieldItem.length_octets listed
  have behindOwner := told.behind_octets
  have behindType := behindOwner.behind_octets
  have readOwner := half_of_holds told.front (half_small _)
  have readType := half_of_holds behindOwner.front (half_small _)
  have readName : word32 contents.octets (contents.fieldsStart + index * 8 + 4) =
      .ok contents.fields[index].name.val :=
    word32_of_holds behindType (contents.string_small small _)
  have entry : contents.container.fields.entry index =
      .ok (contents.fieldsStart + index * 8) := Table.entry_placed index.isLt
  have owner := contents.typeAt_container small (widen contents.fields[index].owner)
  have type := contents.typeAt_container small (widen contents.fields[index].type)
  simp only [widen, Fin.val_castLE] at owner type
  simp only [Container.fieldText, entry, data_container, readOwner, readType, readName,
    contents.stringAt_container small, owner, type, bind, Except.bind]
  rfl

theorem methodText_container (index : Fin contents.methods.length) :
    contents.container.methodText index = .ok (contents.methodText contents.methods[index]) := by
  have owner := contents.typeAt_container small (widen contents.methods[index].owner)
  have proto := contents.protoText_container small (widen contents.methods[index].proto)
  simp only [widen, Fin.val_castLE] at owner proto
  simp only [Container.methodText, contents.methodAt_container small, owner, proto, bind,
    Except.bind]
  rfl

/-- References within the bounds of their tables are resolved as by the contents, and no others
are resolved. -/
theorem pool_container : contents.container.pool = contents.pool := by
  have resolved (kind : ReferenceKind) (index : Nat) :
      contents.container.pool.resolve? kind index = contents.pool.resolve? kind index := by
    cases kind with
    | string =>
        have texts : (contents.container.stringAt index).toOption =
            contents.strings[index]?.map fun text => text :=
          toOption_of_bounds (contents.stringAt_container small)
            (fun _ outside => (Table.entry_outside outside).bind _) index
        rwa [Option.map_id'] at texts
    | typeId =>
        exact toOption_of_bounds (contents.typeAt_container small)
          (fun _ outside => (Table.entry_outside outside).bind _) index
    | field =>
        exact toOption_of_bounds (contents.fieldText_container small)
          (fun _ outside => (Table.entry_outside outside).bind _) index
    | method =>
        exact toOption_of_bounds (contents.methodText_container small)
          (fun _ outside => ((Table.entry_outside outside).bind _).bind _) index
    | proto =>
        exact toOption_of_bounds (contents.protoText_container small)
          (fun _ outside => ((Table.entry_outside outside).bind _).bind _) index
    | callSite => rfl
    | methodHandle => rfl
  exact congrArg ConstantPool.mk (funext fun kind => funext (resolved kind))

end Small

end Contents

end ByteListing.Dex
