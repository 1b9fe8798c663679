import ByteListing.Proofs.Schema.Typed
import ByteListing.Schema.Lookup

/-! # Pools reflect their files

The pool of an accepted schema holds what its files declare and nothing else: a look-up by full
name finds a message, an enumeration, a service or an extension exactly if a file declares one
of that name, and inside a message or a service it finds exactly what stands in that scope.
Things of different kinds have different full names. -/
set_option autoImplicit false
namespace ByteListing.Schema

/-- What a pool has to find of the declarations of its files. -/
structure Pool.Reflects (pool : Pool) (files : List FileDescriptor) : Prop where
  message : ∀ fullName, (pool.message? fullName).isSome ↔ IsDeclared files .message fullName
  enum : ∀ fullName, (pool.enum? fullName).isSome ↔ IsDeclared files .enum fullName
  service : ∀ fullName, (pool.service? fullName).isSome ↔ IsDeclared files .service fullName
  extension : ∀ fullName, (pool.extension? fullName).isSome ↔ IsDeclared files .extension fullName
  package : ∀ fullName, fullName ∈ pool.packages ↔ IsDeclared files .package fullName
  field : ∀ scope name,
    (∃ message, pool.message? scope = some message ∧ ∃ field ∈ message.fields, field.name = name) ↔
      DeclaredIn files .field scope name
  oneof : ∀ scope name,
    (∃ message, pool.message? scope = some message ∧ name ∈ message.oneofs) ↔
      DeclaredIn files .oneof scope name
  method : ∀ scope name,
    (∃ service, pool.service? scope = some service ∧ name ∈ service.methods) ↔
      DeclaredIn files .method scope name
  enumValue : ∀ fullName name,
    (∃ enumeration ∈ pool.enums, enumeration.fullName = fullName ∧
        ∃ value ∈ enumeration.values, value.1 = name) ↔
      ∃ tree ∈ files, ∃ scope enumeration, EnumIn tree scope enumeration ∧
        join scope enumeration.name = fullName ∧ ∃ value ∈ enumeration.values, value.name = name
  distinct : ∀ kind other fullName, fullName ≠ "" →
    IsDeclared files kind fullName → IsDeclared files other fullName → kind = other

/-! ## Full names -/

section

variable {files : List FileDescriptor} {names : Names}
  (entered : Names.Entered [] names (Declaration.ofFiles files))

include entered

theorem kind_unique {kind other : DefinitionKind} {fullName : String} (named : fullName ≠ "")
    (first : IsDeclared files kind fullName) (second : IsDeclared files other fullName) :
    kind = other := by
  have found {kind : DefinitionKind} (declared : IsDeclared files kind fullName) :
      names.kindOf? fullName = some kind := by
    obtain ⟨_, _, ⟨tree, inside, declares⟩, rfl⟩ := declared
    obtain ⟨declaration, listed, rfl, same⟩ := Declaration.exists_mem_ofFile declares
    obtain ⟨index, position⟩ := List.mem_iff_getElem?.mp inside
    have entry := Declaration.mem_ofFiles_iff.mpr ⟨tree, position, listed⟩
    rw [← same]
    exact entered.found _ entry fun _ => same ▸ named
  exact Option.some.inj ((found first).symm.trans (found second))

theorem declaration_unique {first second : Declaration} {tree other : FileDescriptor}
    (treeInside : tree ∈ files) (otherInside : other ∈ files)
    (firstListed : first ∈ Declaration.ofFile tree)
    (secondListed : second ∈ Declaration.ofFile other)
    (firstKind : first.kind ≠ .package) (secondKind : second.kind ≠ .package)
    (same : first.fullName = second.fullName) : first = second := by
  obtain ⟨_, firstPosition⟩ := List.mem_iff_getElem?.mp treeInside
  obtain ⟨_, secondPosition⟩ := List.mem_iff_getElem?.mp otherInside
  exact entered.distinct _ (Declaration.mem_ofFiles_iff.mpr ⟨tree, firstPosition, firstListed⟩)
    _ (Declaration.mem_ofFiles_iff.mpr ⟨other, secondPosition, secondListed⟩)
    firstKind secondKind same

end

/-! ## What a pool holds -/

namespace Typing

section

variable {files : List FileDescriptor} {findings : List Finding}

theorem mem_messages_iff {message : MessageType} :
    message ∈ (poolOf files findings).messages ↔
      ∃ tree ∈ files, ∃ scope descriptor, MessageIn tree scope descriptor ∧
        message = messageType findings (join scope descriptor.name) descriptor := by
  refine Declaration.mem_filterMap_iff.trans ⟨?_, ?_⟩
  · rintro ⟨tree, inside, declaration, declared, added⟩
    cases declaration with
    | message fullName descriptor =>
        obtain ⟨scope, placed, rfl⟩ := Declaration.stands_of_mem_ofFile declared
        exact ⟨tree, inside, scope, descriptor, placed, (Option.some.inj added).symm⟩
    | _ => cases added
  · rintro ⟨tree, inside, scope, descriptor, placed, rfl⟩
    exact ⟨tree, inside, _, Declaration.message_mem_ofFile placed, rfl⟩

theorem mem_enums_iff {enumeration : EnumType} :
    enumeration ∈ (poolOf files findings).enums ↔
      ∃ tree ∈ files, ∃ scope descriptor, EnumIn tree scope descriptor ∧
        enumeration = enumType (join scope descriptor.name) descriptor := by
  refine Declaration.mem_filterMap_iff.trans ⟨?_, ?_⟩
  · rintro ⟨tree, inside, declaration, declared, added⟩
    cases declaration with
    | enum fullName descriptor =>
        obtain ⟨scope, placed, rfl⟩ := Declaration.stands_of_mem_ofFile declared
        exact ⟨tree, inside, scope, descriptor, placed, (Option.some.inj added).symm⟩
    | _ => cases added
  · rintro ⟨tree, inside, scope, descriptor, placed, rfl⟩
    exact ⟨tree, inside, _, Declaration.enum_mem_ofFile placed, rfl⟩

theorem mem_services_iff {service : ServiceType} :
    service ∈ (poolOf files findings).services ↔
      ∃ tree ∈ files, ∃ descriptor ∈ tree.services,
        service = serviceType (join tree.package descriptor.name) descriptor := by
  refine Declaration.mem_filterMap_iff.trans ⟨?_, ?_⟩
  · rintro ⟨tree, inside, declaration, declared, added⟩
    cases declaration with
    | service fullName descriptor =>
        obtain ⟨placed, rfl⟩ := Declaration.stands_of_mem_ofFile declared
        exact ⟨tree, inside, descriptor, placed, (Option.some.inj added).symm⟩
    | _ => cases added
  · rintro ⟨tree, inside, descriptor, placed, rfl⟩
    exact ⟨tree, inside, _, Declaration.service_mem_ofFile placed, rfl⟩

theorem mem_packages_iff {package : String} :
    package ∈ (poolOf files findings).packages ↔ IsDeclared files .package package := by
  refine Declaration.mem_filterMap_iff.trans ⟨?_, ?_⟩
  · rintro ⟨tree, inside, declaration, declared, added⟩
    cases declaration with
    | file descriptor =>
        obtain rfl := Declaration.stands_of_mem_ofFile declared
        exact ⟨"", _, ⟨descriptor, inside, .package⟩, Option.some.inj added⟩
    | _ => cases added
  · rintro ⟨_, _, ⟨tree, inside, declares⟩, rfl⟩
    cases declares with
    | package => exact ⟨tree, inside, .file tree, List.mem_cons_self, rfl⟩

theorem mem_fields_iff {fullName : String} {descriptor : MessageDescriptor} {type : FieldType} :
    type ∈ (messageType findings fullName descriptor).fields ↔
      .field fullName type ∈ findings := by
  refine List.mem_filterMap.trans ⟨?_, ?_⟩
  · rintro ⟨finding, found, ofMessage⟩
    cases finding with
    | field owner foundType =>
        obtain ⟨rfl, equal⟩ := Option.ite_none_right_eq_some.mp ofMessage
        obtain rfl := Option.some.inj equal
        exact found
    | extension => cases ofMessage
  · intro found
    exact ⟨_, found, if_pos rfl⟩

theorem mem_extensions_iff {type : ExtensionType} :
    type ∈ (poolOf files findings).extensions ↔ .extension type ∈ findings := by
  refine List.mem_filterMap.trans ⟨?_, fun found => ⟨_, found, rfl⟩⟩
  rintro ⟨finding, found, isExtension⟩
  cases finding with
  | field => cases isExtension
  | extension => exact Option.some.inj isExtension ▸ found

end

end Typing

/-! ## Look-ups -/

theorem find?_eq_some_iff_of_unique {Item : Type} {key : Item → String} {items : List Item}
    (unique : ∀ first ∈ items, ∀ second ∈ items, key first = key second → first = second)
    {name : String} {item : Item} :
    items.find? (fun other => key other == name) = some item ↔ item ∈ items ∧ key item = name := by
  constructor
  · intro found
    exact ⟨List.mem_of_find?_eq_some found, by simpa using List.find?_some found⟩
  · rintro ⟨listed, rfl⟩
    have someFound : (items.find? fun other => key other == key item).isSome :=
      List.find?_isSome.mpr ⟨item, listed, beq_self_eq_true _⟩
    obtain ⟨other, found⟩ := Option.isSome_iff_exists.mp someFound
    have same : key other = key item := by simpa using List.find?_some found
    rw [found, unique other (List.mem_of_find?_eq_some found) item listed same]

section

variable {files : List FileDescriptor} {names : Names} {findings : List Typing.Finding}
  (entered : Names.Entered [] names (Declaration.ofFiles files))

include entered

theorem message?_poolOf_iff {fullName : String} {message : MessageType} :
    (Typing.poolOf files findings).message? fullName = some message ↔
      ∃ tree ∈ files, ∃ scope descriptor, MessageIn tree scope descriptor ∧
        join scope descriptor.name = fullName ∧
        message = Typing.messageType findings fullName descriptor := by
  have unique : ∀ first ∈ (Typing.poolOf files findings).messages,
      ∀ second ∈ (Typing.poolOf files findings).messages,
        first.fullName = second.fullName → first = second := by
    intro first firstListed second secondListed same
    obtain ⟨tree, inside, scope, descriptor, placed, rfl⟩ :=
      Typing.mem_messages_iff.mp firstListed
    obtain ⟨other, otherInside, otherScope, otherDescriptor, otherPlaced, rfl⟩ :=
      Typing.mem_messages_iff.mp secondListed
    have equal := declaration_unique entered inside otherInside
      (Declaration.message_mem_ofFile placed) (Declaration.message_mem_ofFile otherPlaced)
      nofun nofun same
    obtain ⟨fullEqual, rfl⟩ := Declaration.message.inj equal
    rw [fullEqual]
  rw [Pool.message?, find?_eq_some_iff_of_unique unique, Typing.mem_messages_iff]
  constructor
  · rintro ⟨⟨tree, inside, scope, descriptor, placed, rfl⟩, rfl⟩
    exact ⟨tree, inside, scope, descriptor, placed, rfl, rfl⟩
  · rintro ⟨tree, inside, scope, descriptor, placed, rfl, rfl⟩
    exact ⟨⟨tree, inside, scope, descriptor, placed, rfl⟩, rfl⟩

theorem service?_poolOf_iff {fullName : String} {service : ServiceType} :
    (Typing.poolOf files findings).service? fullName = some service ↔
      ∃ tree ∈ files, ∃ descriptor ∈ tree.services,
        join tree.package descriptor.name = fullName ∧
        service = Typing.serviceType fullName descriptor := by
  have unique : ∀ first ∈ (Typing.poolOf files findings).services,
      ∀ second ∈ (Typing.poolOf files findings).services,
        first.fullName = second.fullName → first = second := by
    intro first firstListed second secondListed same
    obtain ⟨tree, inside, descriptor, placed, rfl⟩ := Typing.mem_services_iff.mp firstListed
    obtain ⟨other, otherInside, otherDescriptor, otherPlaced, rfl⟩ :=
      Typing.mem_services_iff.mp secondListed
    have equal := declaration_unique entered inside otherInside
      (Declaration.service_mem_ofFile placed) (Declaration.service_mem_ofFile otherPlaced)
      nofun nofun same
    obtain ⟨fullEqual, rfl⟩ := Declaration.service.inj equal
    rw [fullEqual]
  rw [Pool.service?, find?_eq_some_iff_of_unique unique, Typing.mem_services_iff]
  constructor
  · rintro ⟨⟨tree, inside, descriptor, placed, rfl⟩, rfl⟩
    exact ⟨tree, inside, descriptor, placed, rfl, rfl⟩
  · rintro ⟨tree, inside, descriptor, placed, rfl, rfl⟩
    exact ⟨⟨tree, inside, descriptor, placed, rfl⟩, rfl⟩

theorem isSome_message?_iff {fullName : String} :
    ((Typing.poolOf files findings).message? fullName).isSome ↔
      IsDeclared files .message fullName := by
  rw [Option.isSome_iff_exists]
  constructor
  · rintro ⟨_, found⟩
    obtain ⟨tree, inside, scope, _, placed, same, _⟩ := (message?_poolOf_iff entered).mp found
    exact ⟨scope, _, ⟨tree, inside, .message placed⟩, same⟩
  · rintro ⟨_, _, ⟨tree, inside, declares⟩, same⟩
    cases declares with
    | message placed =>
        exact ⟨_, (message?_poolOf_iff entered).mpr ⟨tree, inside, _, _, placed, same, rfl⟩⟩

theorem isSome_service?_iff {fullName : String} :
    ((Typing.poolOf files findings).service? fullName).isSome ↔
      IsDeclared files .service fullName := by
  rw [Option.isSome_iff_exists]
  constructor
  · rintro ⟨_, found⟩
    obtain ⟨tree, inside, _, placed, same, _⟩ := (service?_poolOf_iff entered).mp found
    exact ⟨tree.package, _, ⟨tree, inside, .service placed⟩, same⟩
  · rintro ⟨_, _, ⟨tree, inside, declares⟩, same⟩
    cases declares with
    | service placed =>
        exact ⟨_, (service?_poolOf_iff entered).mpr ⟨tree, inside, _, placed, same, rfl⟩⟩

omit entered in
theorem isSome_enum?_iff {fullName : String} :
    ((Typing.poolOf files findings).enum? fullName).isSome ↔ IsDeclared files .enum fullName := by
  simp only [Pool.enum?, List.find?_isSome, Typing.mem_enums_iff, beq_iff_eq]
  constructor
  · rintro ⟨_, ⟨tree, inside, scope, _, placed, rfl⟩, same⟩
    exact ⟨scope, _, ⟨tree, inside, .enum placed⟩, same⟩
  · rintro ⟨_, _, ⟨tree, inside, declares⟩, same⟩
    cases declares with
    | enum placed => exact ⟨_, ⟨tree, inside, _, _, placed, rfl⟩, same⟩

/-! ## What stands in a scope -/

theorem exists_oneof_iff {scope name : String} :
    (∃ message, (Typing.poolOf files findings).message? scope = some message ∧
        name ∈ message.oneofs) ↔
      DeclaredIn files .oneof scope name := by
  constructor
  · rintro ⟨_, found, listed⟩
    obtain ⟨tree, inside, _, _, placed, rfl, rfl⟩ := (message?_poolOf_iff entered).mp found
    obtain ⟨oneof, oneofInside, rfl⟩ := List.mem_map.mp listed
    exact ⟨tree, inside, .oneof placed oneofInside⟩
  · rintro ⟨tree, inside, declares⟩
    cases declares with
    | oneof placed oneofInside =>
        exact ⟨_, (message?_poolOf_iff entered).mpr ⟨tree, inside, _, _, placed, rfl, rfl⟩,
          List.mem_map.mpr ⟨_, oneofInside, rfl⟩⟩

theorem exists_method_iff {scope name : String} :
    (∃ service, (Typing.poolOf files findings).service? scope = some service ∧
        name ∈ service.methods) ↔
      DeclaredIn files .method scope name := by
  constructor
  · rintro ⟨_, found, listed⟩
    obtain ⟨tree, inside, _, placed, rfl, rfl⟩ := (service?_poolOf_iff entered).mp found
    obtain ⟨method, methodInside, rfl⟩ := List.mem_map.mp listed
    exact ⟨tree, inside, .method placed methodInside⟩
  · rintro ⟨tree, inside, declares⟩
    cases declares with
    | method placed methodInside =>
        exact ⟨_, (service?_poolOf_iff entered).mpr ⟨tree, inside, _, placed, rfl, rfl⟩,
          List.mem_map.mpr ⟨_, methodInside, rfl⟩⟩

omit entered in
theorem exists_enumValue_iff {fullName name : String} :
    (∃ enumeration ∈ (Typing.poolOf files findings).enums, enumeration.fullName = fullName ∧
        ∃ value ∈ enumeration.values, value.1 = name) ↔
      ∃ tree ∈ files, ∃ scope enumeration, EnumIn tree scope enumeration ∧
        join scope enumeration.name = fullName ∧
          ∃ value ∈ enumeration.values, value.name = name := by
  constructor
  · rintro ⟨_, listed, rfl, _, valueListed, rfl⟩
    obtain ⟨tree, inside, scope, descriptor, placed, rfl⟩ := Typing.mem_enums_iff.mp listed
    obtain ⟨value, valueInside, rfl⟩ := List.mem_map.mp valueListed
    exact ⟨tree, inside, scope, descriptor, placed, rfl, value, valueInside, rfl⟩
  · rintro ⟨tree, inside, scope, descriptor, placed, rfl, value, valueInside, rfl⟩
    exact ⟨_, Typing.mem_enums_iff.mpr ⟨tree, inside, scope, descriptor, placed, rfl⟩, rfl, _,
      List.mem_map.mpr ⟨value, valueInside, rfl⟩, rfl⟩

end

section

variable {files : List FileDescriptor} {context : Typing.Context}
  {findings : List (Option Typing.Finding)}
  (checked : ((Declaration.ofFiles files).mapM fun (file, declaration) =>
    Typing.typeDeclaration context file declaration) = .ok findings)

include checked

theorem isSome_extension?_iff {fullName : String} :
    ((Typing.poolOf files (findings.filterMap id)).extension? fullName).isSome ↔
      IsDeclared files .extension fullName := by
  rw [← Typing.exists_extension_finding_iff checked]
  simp only [Pool.extension?, List.find?_isSome, Typing.mem_extensions_iff, beq_iff_eq]

theorem exists_field_iff {names : Names}
    (entered : Names.Entered [] names (Declaration.ofFiles files)) {scope name : String} :
    (∃ message, (Typing.poolOf files (findings.filterMap id)).message? scope = some message ∧
        ∃ field ∈ message.fields, field.name = name) ↔
      DeclaredIn files .field scope name := by
  constructor
  · rintro ⟨_, found, type, listed, same⟩
    obtain ⟨_, _, _, _, _, _, rfl⟩ := (message?_poolOf_iff entered).mp found
    exact (Typing.exists_field_finding_iff checked).mp
      ⟨type, Typing.mem_fields_iff.mp listed, same⟩
  · intro declared
    obtain ⟨type, found, same⟩ := (Typing.exists_field_finding_iff checked).mpr declared
    obtain ⟨tree, inside, declares⟩ := declared
    cases declares with
    | field placed _ =>
        exact ⟨_, (message?_poolOf_iff entered).mpr ⟨tree, inside, _, _, placed, rfl, rfl⟩,
          type, Typing.mem_fields_iff.mpr found, same⟩

end

namespace Pool

theorem exists_of_decode_eq_ok {schema : Bytes} {files : List FileDescriptor} {pool : Pool}
    (decoded : FileDescriptor.decodeSet? schema = some files)
    (accepted : decode schema = .ok pool) :
    ∃ names, Names.Entered [] names (Declaration.ofFiles files) ∧
      Typing.pool (.ofFiles files (Declaration.ofFiles files) names)
        (Declaration.ofFiles files) = .ok pool := by
  simp only [decode, decoded] at accepted
  obtain ⟨names, collected, typing⟩ := exists_of_bind_eq_ok accepted
  obtain ⟨types, typed, checking⟩ := exists_of_bind_eq_ok typing
  obtain ⟨_, _, returned⟩ := exists_of_bind_eq_ok checking
  obtain rfl := Except.ok.inj returned
  exact ⟨names, Names.entered_of_collect collected, typed⟩

theorem reflects_of_decode {schema : Bytes} {files : List FileDescriptor} {pool : Pool}
    (decoded : FileDescriptor.decodeSet? schema = some files)
    (accepted : decode schema = .ok pool) : pool.Reflects files := by
  obtain ⟨names, entered, typed⟩ := exists_of_decode_eq_ok decoded accepted
  obtain ⟨findings, checked, rfl⟩ := Typing.exists_of_pool_eq_ok typed
  exact {
    message := fun fullName => isSome_message?_iff entered
    enum := fun fullName => isSome_enum?_iff
    service := fun fullName => isSome_service?_iff entered
    extension := fun fullName => isSome_extension?_iff checked
    package := fun fullName => Typing.mem_packages_iff
    field := fun scope name => exists_field_iff checked entered
    oneof := fun scope name => exists_oneof_iff entered
    method := fun scope name => exists_method_iff entered
    enumValue := fun fullName name => exists_enumValue_iff
    distinct := fun _ _ _ named => kind_unique entered named }

end Pool

end ByteListing.Schema
