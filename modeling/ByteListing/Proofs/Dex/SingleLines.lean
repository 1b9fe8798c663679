import ByteListing.Proofs.Dex.Lookup
import ByteListing.Proofs.Dex.NamesInLines
import ByteListing.Proofs.Steps

/-! # Lines of a container

What a query returns consists of lines, each of which is one line if the names in it are.  So in a
container whose descriptors and names of fields and methods hold no line ends, every query returns
single lines, and so does reading any code with the pool of that container, whatever its other
strings hold (`queries_return_lines`). -/
set_option autoImplicit false
namespace ByteListing.Dex

/-! ## Containers -/

namespace Container

def fieldName (container : Container) (index : Nat) : Except Fault String := do
  let entry ← container.fields.entry index
  container.stringAt (← word32 container.data (entry + 4))

/-- No descriptor and no name of a field or a method ends a line. -/
structure PlainNames (container : Container) : Prop where
  types : ∀ index descriptor, container.typeAt index = .ok descriptor → OneLine descriptor
  fields : ∀ index name, container.fieldName index = .ok name → OneLine name
  methods : ∀ index reference, container.methodAt index = .ok reference → OneLine reference.name

variable {container : Container}

theorem exists_descriptor_of_classNames {names : List String}
    (listed : container.classNames = .ok names) {name : String} (member : name ∈ names) :
    ∃ index descriptor, container.typeAt index = .ok descriptor ∧
      name = TypeName.ofDescriptor descriptor := by
  obtain ⟨_, -, read⟩ := exists_item_of_mapM_eq_ok listed member
  obtain ⟨entry, -, read⟩ := exists_of_bind_eq_ok read
  obtain ⟨descriptor, typed, rfl⟩ := exists_of_map_eq_ok read
  exact ⟨entry.classIndex, descriptor, typed, rfl⟩

section Plain

variable (plain : container.PlainNames)
include plain

theorem oneLine_of_typeList {count position : Nat} {descriptors : List String}
    (read : container.typeList count position = .ok descriptors) :
    ∀ descriptor ∈ descriptors, OneLine descriptor := by
  induction count generalizing position descriptors with
  | zero =>
      cases read
      exact List.forall_mem_nil _
  | succ count inductionHypothesis =>
      obtain ⟨index, -, read⟩ := exists_of_bind_eq_ok read
      obtain ⟨descriptor, typed, read⟩ := exists_of_bind_eq_ok read
      obtain ⟨others, restRead, read⟩ := exists_of_bind_eq_ok read
      obtain rfl := Except.ok.inj read
      exact List.forall_mem_cons.mpr
        ⟨plain.types index descriptor typed, inductionHypothesis restRead⟩

theorem oneLine_of_protoAt {index : Nat} {proto : Prototype}
    (read : container.protoAt index = .ok proto) :
    (∀ descriptor ∈ proto.parameters, OneLine descriptor) ∧ OneLine proto.returnType := by
  obtain ⟨entry, -, read⟩ := exists_of_bind_eq_ok read
  obtain ⟨shorty, -, read⟩ := exists_of_bind_eq_ok read
  obtain ⟨returnType, -, read⟩ := exists_of_bind_eq_ok read
  obtain ⟨start, -, read⟩ := exists_of_bind_eq_ok read
  obtain ⟨parameters, listed, read⟩ := exists_of_bind_eq_ok read
  obtain ⟨shortyText, -, read⟩ := exists_of_bind_eq_ok read
  obtain ⟨returned, typed, read⟩ := exists_of_bind_eq_ok read
  obtain rfl := Except.ok.inj read
  refine ⟨?_, plain.types returnType returned typed⟩
  rw [parametersAt] at listed
  split at listed
  · cases listed
    exact List.forall_mem_nil _
  · obtain ⟨count, -, listed⟩ := exists_of_bind_eq_ok listed
    exact oneLine_of_typeList plain listed

theorem oneLine_of_protoText {index : Nat} {text : String}
    (read : container.protoText index = .ok text) : OneLine text := by
  obtain ⟨proto, found, read⟩ := exists_of_bind_eq_ok read
  obtain rfl := Except.ok.inj read
  obtain ⟨parameters, returned⟩ := oneLine_of_protoAt plain found
  simp only [oneLine_append_iff]
  exact ⟨⟨⟨by decide, oneLine_join parameters⟩, by decide⟩, returned⟩

theorem oneLine_of_fieldText {index : Nat} {text : String}
    (read : container.fieldText index = .ok text) : OneLine text := by
  obtain ⟨entry, placed, read⟩ := exists_of_bind_eq_ok read
  obtain ⟨ownerIndex, -, read⟩ := exists_of_bind_eq_ok read
  obtain ⟨owner, owned, read⟩ := exists_of_bind_eq_ok read
  obtain ⟨nameIndex, pointed, read⟩ := exists_of_bind_eq_ok read
  obtain ⟨name, named, read⟩ := exists_of_bind_eq_ok read
  obtain ⟨typeIndex, -, read⟩ := exists_of_bind_eq_ok read
  obtain ⟨type, typed, read⟩ := exists_of_bind_eq_ok read
  obtain rfl := Except.ok.inj read
  have field : container.fieldName index = .ok name := by
    rw [fieldName, placed]
    simp only [bind, Except.bind, pointed, named]
  simp only [oneLine_append_iff]
  exact ⟨⟨⟨⟨plain.types ownerIndex owner owned, by decide⟩, plain.fields index name field⟩,
    by decide⟩, plain.types typeIndex type typed⟩

theorem oneLine_of_methodText {index : Nat} {text : String}
    (read : container.methodText index = .ok text) : OneLine text := by
  obtain ⟨reference, found, read⟩ := exists_of_bind_eq_ok read
  obtain ⟨owner, owned, read⟩ := exists_of_bind_eq_ok read
  obtain ⟨proto, protoRead, read⟩ := exists_of_bind_eq_ok read
  obtain rfl := Except.ok.inj read
  simp only [oneLine_append_iff]
  exact ⟨⟨⟨plain.types reference.classIndex owner owned, by decide⟩,
    plain.methods index reference found⟩, oneLine_of_protoText plain protoRead⟩

theorem namesOneLine_pool (kind : ReferenceKind) (index : Nat) :
    Operand.NamesOneLine container.pool kind index := by
  intro noString found resolved
  cases kind with
  | string => exact absurd rfl noString
  | typeId => exact plain.types index found (eq_ok_of_toOption resolved)
  | field => exact oneLine_of_fieldText plain (eq_ok_of_toOption resolved)
  | method => exact oneLine_of_methodText plain (eq_ok_of_toOption resolved)
  | proto => exact oneLine_of_protoText plain (eq_ok_of_toOption resolved)
  | callSite | methodHandle => cases resolved

theorem oneLine_of_describeMethod {entry : MethodEntry} {method : Method}
    (described : container.describeMethod entry = .ok method) : OneLine method.signature := by
  obtain ⟨reference, found, described⟩ := exists_of_bind_eq_ok described
  obtain ⟨proto, protoRead, described⟩ := exists_of_bind_eq_ok described
  obtain rfl := Except.ok.inj described
  refine (Method.oneLine_signature_iff _).mpr ⟨plain.methods _ reference found, fun _ _ _ => ?_⟩
  exact (TypeName.oneLine_ofDescriptor_iff _).mpr (oneLine_of_protoAt plain protoRead).2

theorem oneLine_of_findClass {name : String} {declared : Class}
    (found : container.findClass name = .ok declared) :
    ∀ method ∈ declared.methods, OneLine method.signature := by
  obtain ⟨entry, -, found⟩ := exists_of_bind_eq_ok found
  obtain ⟨⟨direct, virtual⟩, -, found⟩ := exists_of_bind_eq_ok found
  obtain ⟨descriptor, -, found⟩ := exists_of_bind_eq_ok found
  obtain ⟨superclass, -, found⟩ := exists_of_bind_eq_ok found
  obtain ⟨directMethods, directDescribed, found⟩ := exists_of_bind_eq_ok found
  obtain ⟨virtualMethods, virtualDescribed, found⟩ := exists_of_bind_eq_ok found
  obtain rfl := Except.ok.inj found
  intro method member
  rcases List.mem_append.mp member with inDirect | inVirtual
  · obtain ⟨entry, -, described⟩ := exists_item_of_mapM_eq_ok directDescribed inDirect
    exact oneLine_of_describeMethod plain described
  · obtain ⟨entry, -, described⟩ := exists_item_of_mapM_eq_ok virtualDescribed inVirtual
    exact oneLine_of_describeMethod plain described

end Plain

end Container

theorem exists_code_of_listInstructions {data : Bytes} {className methodName : String}
    {pool : ConstantPool} {instructions : List Instruction}
    (listed : listInstructions data className methodName = .ok (pool, instructions)) :
    ∃ container start units, Container.parse data = .ok container ∧ pool = container.pool ∧
      decodeCode start units = .ok instructions := by
  obtain ⟨container, parsed, listed⟩ := exists_of_bind_eq_ok listed
  obtain ⟨declared, -, listed⟩ := exists_of_bind_eq_ok listed
  split at listed
  · split at listed
    · obtain ⟨units, -, listed⟩ := exists_of_bind_eq_ok listed
      obtain ⟨decoded, code, listed⟩ := exists_of_bind_eq_ok listed
      obtain ⟨rfl, rfl⟩ := Prod.mk.inj (Except.ok.inj listed)
      exact ⟨container, _, units, parsed, rfl, code⟩
    · obtain ⟨rfl, rfl⟩ := Prod.mk.inj (Except.ok.inj listed)
      exact ⟨container, 0, [], parsed, rfl, decodeCode_eq_ok_iff.mpr .nil⟩
  · cases listed

/-- Names of classes, signatures and instructions are one line if the names in a container are,
whatever strings it holds besides.  Each of them alone is one line exactly if its own names are: the
name of a class if its descriptor is, a signature if the name of the method and a declared return
type in it are, and an instruction if what it refers to is, strings apart. -/
theorem queries_return_lines {data : Bytes} {container : Container}
    (parsed : Container.parse data = .ok container) :
    (container.PlainNames →
      (∀ names, listClasses data = .ok names → ∀ name ∈ names, OneLine name) ∧
      (∀ className methods, listMethods data className = .ok methods →
        ∀ method ∈ methods, OneLine method.signature) ∧
      (∀ className methodName pool instructions,
        listInstructions data className methodName = .ok (pool, instructions) →
        ∀ instruction ∈ instructions, OneLine (instruction.text pool)) ∧
      ∀ start units instructions, decodeCode start units = .ok instructions →
        ∀ instruction ∈ instructions, OneLine (instruction.text container.pool)) ∧
    (∀ names, listClasses data = .ok names → ∀ name ∈ names, ∃ index descriptor,
      container.typeAt index = .ok descriptor ∧ name = TypeName.ofDescriptor descriptor ∧
        (OneLine name ↔ OneLine descriptor)) ∧
    (∀ className methods, listMethods data className = .ok methods → ∀ method ∈ methods,
      (OneLine method.signature ↔ OneLine method.name ∧
        ∀ code ∈ method.shorty.toList.head?,
          code = 'L' ∨ code = '[' → OneLine method.returnType)) ∧
    ∀ start units instructions, decodeCode start units = .ok instructions →
      ∀ pool, ∀ instruction ∈ instructions, (OneLine (instruction.text pool) ↔
        ∀ kind index, instruction.body.Refers kind index →
          Operand.NamesOneLine pool kind index) := by
  refine ⟨fun plain => ⟨?_, ?_, ?_, ?_⟩, ?_, ?_, ?_⟩
  · intro names listed name member
    rw [listClasses, parsed] at listed
    obtain ⟨index, descriptor, typed, rfl⟩ :=
      Container.exists_descriptor_of_classNames listed member
    exact (TypeName.oneLine_ofDescriptor_iff descriptor).mpr (plain.types index descriptor typed)
  · intro className methods listed
    obtain ⟨declared, found, rfl⟩ := exists_of_map_eq_ok listed
    rw [findClass, parsed] at found
    exact Container.oneLine_of_findClass plain found
  · intro className methodName pool instructions listed instruction member
    obtain ⟨other, start, units, otherParsed, rfl, decoded⟩ :=
      exists_code_of_listInstructions listed
    obtain rfl := Except.ok.inj (otherParsed.symm.trans parsed)
    rw [oneLine_instruction_iff decoded other.pool member]
    exact fun kind index _ => Container.namesOneLine_pool plain kind index
  · intro start units instructions decoded instruction member
    rw [oneLine_instruction_iff decoded container.pool member]
    exact fun kind index _ => Container.namesOneLine_pool plain kind index
  · intro names listed name member
    rw [listClasses, parsed] at listed
    obtain ⟨index, descriptor, typed, rfl⟩ :=
      Container.exists_descriptor_of_classNames listed member
    exact ⟨index, descriptor, typed, rfl, TypeName.oneLine_ofDescriptor_iff descriptor⟩
  · intro className methods _ method _
    exact method.oneLine_signature_iff
  · intro start units instructions decoded pool instruction member
    exact oneLine_instruction_iff decoded pool member

/-! ## Containers that were laid out -/

theorem Table.inside_of_entry {kind : TableKind} {size start index position : Nat}
    (placed : (Table.placed kind size start).entry index = .ok position) : index < size := by
  by_contra outside
  obtain ⟨fault, failed⟩ := Table.entry_outside (Nat.le_of_not_lt outside)
  cases failed.symm.trans placed

namespace Contents

variable (contents : Contents) (small : contents.octets.length < 2 ^ 32)
include small

theorem fieldName_container (index : Fin contents.fields.length) :
    contents.container.fieldName index =
      .ok (contents.string (contents.fields.get index).name) := by
  have listed : contents.fields[index.val]? = some contents.fields[index] :=
    List.getElem?_eq_getElem index.isLt
  have told := contents.regions.fields.entry FieldItem.length_octets listed
  have behindType := told.behind_octets.behind_octets
  have readName : word32 contents.octets (contents.fieldsStart + index * 8 + 4) =
      .ok contents.fields[index].name.val :=
    word32_of_holds behindType (contents.string_small small _)
  have entry : contents.container.fields.entry index =
      .ok (contents.fieldsStart + index * 8) := Table.entry_placed index.isLt
  simp only [Container.fieldName, entry, data_container, readName, bind, Except.bind]
  exact contents.stringAt_container small _

theorem plainNames_container
    (types : ∀ index : Fin contents.types.length, OneLine (contents.descriptor index))
    (fields : ∀ index : Fin contents.fields.length,
      OneLine (contents.string (contents.fields.get index).name))
    (methods : ∀ index : Fin contents.methods.length,
      OneLine (contents.string (contents.methods.get index).name)) :
    contents.container.PlainNames := by
  constructor
  · intro index descriptor read
    obtain ⟨entry, placed, -⟩ := exists_of_bind_eq_ok read
    have inside := contents.typeAt_container small ⟨index, Table.inside_of_entry placed⟩
    rw [← Except.ok.inj (inside.symm.trans read)]
    exact types ⟨index, _⟩
  · intro index name read
    obtain ⟨entry, placed, -⟩ := exists_of_bind_eq_ok read
    have inside := contents.fieldName_container small ⟨index, Table.inside_of_entry placed⟩
    rw [← Except.ok.inj (inside.symm.trans read)]
    exact fields ⟨index, _⟩
  · intro index reference read
    obtain ⟨entry, placed, -⟩ := exists_of_bind_eq_ok read
    have inside := contents.methodAt_container small ⟨index, Table.inside_of_entry placed⟩
    rw [← Except.ok.inj (inside.symm.trans read)]
    exact methods ⟨index, _⟩

end Contents

/-- A class with a method that refers to a string with a line feed, and to a type. -/
def referringTo (descriptor : String) : Contents where
  strings := ["LA;", "V", "run", "line\nfeed", descriptor]
  types := [0, 1, 4]
  protos := [⟨1, 1, []⟩]
  fields := []
  methods := [⟨⟨0, Nat.lt_min.mpr ⟨Nat.zero_lt_succ _, by decide⟩⟩,
    ⟨0, Nat.lt_min.mpr ⟨Nat.zero_lt_succ _, by decide⟩⟩, 2⟩]
  classes := [⟨0, 1, none, some ⟨[], [],
    [⟨0, 9, some [0x001A, 0x0003, 0x001C, 0x0002, 0x000E]⟩], [],
    List.pairwise_singleton .., .nil⟩⟩]

def listedTexts (data : Bytes) (className methodName : String) : Option (List String) :=
  (listInstructions data className methodName).toOption.map fun listed =>
    listed.2.map (Instruction.text listed.1)

theorem queries_return_lines_of_string :
    listedTexts (referringTo "LB;").octets "A" "run" =
      some ["  const-string v0, \"line\\nfeed\"", "  const-class v0, LB;", "  return-void"] ∧
    OneLine "  const-string v0, \"line\\nfeed\"" := by
  have small : (referringTo "LB;").octets.length < 2 ^ 32 := by decide +kernel
  have read := (referringTo "LB;").listInstructions_octets small "A" "run"
  have plain : (referringTo "LB;").container.PlainNames := by
    apply (referringTo "LB;").plainNames_container small
    · decide +kernel
    · decide +kernel
    · decide +kernel
  have texts : listedTexts (referringTo "LB;").octets "A" "run" =
      some ["  const-string v0, \"line\\nfeed\"", "  const-class v0, LB;", "  return-void"] := by
    rw [listedTexts, read]
    decide +kernel
  refine ⟨texts, ?_⟩
  obtain ⟨⟨pool, instructions⟩, listed, shown⟩ := Option.map_eq_some_iff.mp texts
  have lines := ((queries_return_lines ((referringTo "LB;").parse_octets small)).1 plain).2.2.1
    "A" "run" pool instructions (eq_ok_of_toOption listed)
  have allLines := List.forall_mem_map.mpr lines
  rw [shown] at allLines
  exact allLines _ List.mem_cons_self

/-- The line feed in a descriptor ends the line of the instruction that refers to it. -/
theorem instruction_on_two_lines :
    listedTexts (referringTo "LB;\n  return-void").octets "A" "run" =
      some ["  const-string v0, \"line\\nfeed\"", "  const-class v0, LB;\n  return-void",
        "  return-void"] ∧
    ¬ OneLine "  const-class v0, LB;\n  return-void" := by
  have small : (referringTo "LB;\n  return-void").octets.length < 2 ^ 32 := by decide +kernel
  have read := (referringTo "LB;\n  return-void").listInstructions_octets small "A" "run"
  refine ⟨?_, by decide +kernel⟩
  rw [listedTexts, read]
  decide +kernel

end ByteListing.Dex
