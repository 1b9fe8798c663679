import ByteListing.Schema.Names

/-! # What files declare

What a file declares, told from the tree of its descriptors: each thing has a kind, the scope in
which it stands and a name of its own.  A message inside another stands in the scope of that
one, the values of an enumeration stand beside it, and a package stands in no scope.

The sequence of declarations that the checks visit holds nothing else (`stands_of_mem_ofFile`)
and everything of it (`exists_mem_ofFile`). -/
set_option autoImplicit false
namespace ByteListing.Schema

inductive MessageIn (file : FileDescriptor) : String → MessageDescriptor → Prop
  | outermost {message : MessageDescriptor} :
      message ∈ file.messages → MessageIn file file.package message
  | nested {scope : String} {outer message : MessageDescriptor} :
      MessageIn file scope outer → message ∈ outer.nested →
        MessageIn file (join scope outer.name) message

inductive EnumIn (file : FileDescriptor) : String → EnumDescriptor → Prop
  | outermost {enumeration : EnumDescriptor} :
      enumeration ∈ file.enums → EnumIn file file.package enumeration
  | nested {scope : String} {message : MessageDescriptor} {enumeration : EnumDescriptor} :
      MessageIn file scope message → enumeration ∈ message.enums →
        EnumIn file (join scope message.name) enumeration

inductive ExtensionIn (file : FileDescriptor) : String → FieldDescriptor → Prop
  | outermost {extension : FieldDescriptor} :
      extension ∈ file.extensions → ExtensionIn file file.package extension
  | nested {scope : String} {message : MessageDescriptor} {extension : FieldDescriptor} :
      MessageIn file scope message → extension ∈ message.extensions →
        ExtensionIn file (join scope message.name) extension

/-- The things that a file declares: the kind of each, its scope and its name there. -/
inductive Declares (file : FileDescriptor) : DefinitionKind → String → String → Prop
  | package : Declares file .package "" file.package
  | message {scope : String} {message : MessageDescriptor} :
      MessageIn file scope message → Declares file .message scope message.name
  | field {scope : String} {message : MessageDescriptor} {field : FieldDescriptor} :
      MessageIn file scope message → field ∈ message.fields →
        Declares file .field (join scope message.name) field.name
  | oneof {scope : String} {message : MessageDescriptor} {oneof : OneofDescriptor} :
      MessageIn file scope message → oneof ∈ message.oneofs →
        Declares file .oneof (join scope message.name) oneof.name
  | service {service : ServiceDescriptor} :
      service ∈ file.services → Declares file .service file.package service.name
  | method {service : ServiceDescriptor} {method : MethodDescriptor} :
      service ∈ file.services → method ∈ service.methods →
        Declares file .method (join file.package service.name) method.name
  | enum {scope : String} {enumeration : EnumDescriptor} :
      EnumIn file scope enumeration → Declares file .enum scope enumeration.name
  | enumValue {scope : String} {enumeration : EnumDescriptor} {value : EnumValueDescriptor} :
      EnumIn file scope enumeration → value ∈ enumeration.values →
        Declares file .enumValue scope value.name
  | extension {scope : String} {extension : FieldDescriptor} :
      ExtensionIn file scope extension → Declares file .extension scope extension.name

def DeclaredIn (files : List FileDescriptor) (kind : DefinitionKind) (scope name : String) : Prop :=
  ∃ tree ∈ files, Declares tree kind scope name

def IsDeclared (files : List FileDescriptor) (kind : DefinitionKind) (fullName : String) : Prop :=
  ∃ scope name, DeclaredIn files kind scope name ∧ join scope name = fullName

@[simp] theorem join_outside (name : String) : join "" name = name := rfl

namespace Declaration

def kind : Declaration → DefinitionKind
  | file _ => .package
  | message .. => .message
  | oneof .. => .oneof
  | field .. => .field
  | enum .. => .enum
  | enumValue .. => .enumValue
  | service .. => .service
  | method .. => .method
  | extension .. => .extension

/-- The name under which a declaration is entered; that of a file is its package. -/
def fullName : Declaration → String
  | file descriptor => descriptor.package
  | message name _ => name
  | oneof name _ => name
  | field name .. => name
  | enum name _ => name
  | enumValue name .. => name
  | service name _ => name
  | method name _ => name
  | extension name .. => name

def Stands (tree : FileDescriptor) : Declaration → Prop
  | file descriptor => descriptor = tree
  | message fullName descriptor =>
    ∃ scope, MessageIn tree scope descriptor ∧ fullName = join scope descriptor.name
  | oneof fullName declared =>
    ∃ scope descriptor, MessageIn tree scope descriptor ∧ declared ∈ descriptor.oneofs ∧
      fullName = join (join scope descriptor.name) declared.name
  | field fullName _ owner descriptor _ declared =>
    ∃ scope, MessageIn tree scope descriptor ∧ declared ∈ descriptor.fields ∧
      owner = join scope descriptor.name ∧ fullName = join owner declared.name
  | enum fullName descriptor =>
    ∃ scope, EnumIn tree scope descriptor ∧ fullName = join scope descriptor.name
  | enumValue fullName descriptor _ value =>
    ∃ scope, EnumIn tree scope descriptor ∧ value ∈ descriptor.values ∧
      fullName = join scope value.name
  | service fullName descriptor =>
    descriptor ∈ tree.services ∧ fullName = join tree.package descriptor.name
  | method fullName declared =>
    ∃ descriptor ∈ tree.services, declared ∈ descriptor.methods ∧
      fullName = join (join tree.package descriptor.name) declared.name
  | extension fullName _ declared =>
    ∃ scope, ExtensionIn tree scope declared ∧ fullName = join scope declared.name

/-! ## Nothing else is declared -/

section

variable {tree : FileDescriptor} {scope : String} {path : Path} {declaration : Declaration}

theorem stands_of_mem_ofEnum {enumeration : EnumDescriptor}
    (placed : EnumIn tree scope enumeration) (listed : declaration ∈ ofEnum scope enumeration) :
    declaration.Stands tree := by
  rcases List.mem_cons.mp listed with rfl | valueListed
  · exact ⟨scope, placed, rfl⟩
  · obtain ⟨index, inside, rfl⟩ := List.mem_mapIdx.mp valueListed
    exact ⟨scope, placed, List.getElem_mem inside, rfl⟩

theorem stands_of_mem_ofService {descriptor : ServiceDescriptor}
    (placed : descriptor ∈ tree.services)
    (listed : declaration ∈ ofService tree.package descriptor) : declaration.Stands tree := by
  rcases List.mem_cons.mp listed with rfl | methodListed
  · exact ⟨placed, rfl⟩
  · obtain ⟨declared, inside, rfl⟩ := List.mem_map.mp methodListed
    exact ⟨descriptor, placed, inside, rfl⟩

theorem stands_of_mem_ofExtensions {fields : List FieldDescriptor}
    (placed : ∀ declared ∈ fields, ExtensionIn tree scope declared)
    (listed : declaration ∈ ofExtensions scope path fields) : declaration.Stands tree := by
  obtain ⟨index, inside, rfl⟩ := List.mem_mapIdx.mp listed
  exact ⟨scope, placed _ (List.getElem_mem inside), rfl⟩

theorem stands_of_mem_ofFields {descriptor : MessageDescriptor}
    (placed : MessageIn tree scope descriptor)
    (listed : declaration ∈ ofFields (join scope descriptor.name) path descriptor) :
    declaration.Stands tree := by
  obtain ⟨index, inside, rfl⟩ := List.mem_mapIdx.mp listed
  exact ⟨scope, placed, List.getElem_mem inside, rfl, rfl⟩

end

mutual

theorem stands_of_mem_ofMessage {tree : FileDescriptor} {scope : String} {path : Path}
    {descriptor : MessageDescriptor} {declaration : Declaration}
    (placed : MessageIn tree scope descriptor)
    (listed : declaration ∈ ofMessage scope path descriptor) : declaration.Stands tree := by
  rw [ofMessage] at listed
  simp only [List.mem_cons, List.mem_append, List.mem_map, List.mem_flatMap] at listed
  obtain rfl | (((⟨declared, inside, rfl⟩ | fields) | messages) | ⟨enumeration, inside, enums⟩) |
    extensions := listed
  · exact ⟨scope, placed, rfl⟩
  · exact ⟨scope, descriptor, placed, inside, rfl⟩
  · exact stands_of_mem_ofFields placed fields
  · exact stands_of_mem_ofMessages (fun _ inner => .nested placed inner) messages
  · exact stands_of_mem_ofEnum (.nested placed inside) enums
  · exact stands_of_mem_ofExtensions (fun _ inside => .nested placed inside) extensions
termination_by sizeOf descriptor
decreasing_by
  cases descriptor
  simp
  omega

theorem stands_of_mem_ofMessages {tree : FileDescriptor} {scope : String} {path : Path}
    {index : Nat} {messages : List MessageDescriptor} {declaration : Declaration}
    (placed : ∀ descriptor ∈ messages, MessageIn tree scope descriptor)
    (listed : declaration ∈ ofMessages scope path index messages) :
    declaration.Stands tree := by
  match messages with
  | [] =>
      rw [ofMessages] at listed
      cases listed
  | descriptor :: rest =>
      rw [ofMessages] at listed
      rcases List.mem_append.mp listed with first | later
      · exact stands_of_mem_ofMessage (placed descriptor List.mem_cons_self) first
      · exact stands_of_mem_ofMessages
          (fun other inside => placed other (List.mem_cons_of_mem descriptor inside)) later
termination_by sizeOf messages

end

theorem stands_of_mem_ofFile {tree : FileDescriptor} {declaration : Declaration}
    (listed : declaration ∈ ofFile tree) : declaration.Stands tree := by
  simp only [ofFile, List.mem_cons, List.mem_append, List.mem_flatMap] at listed
  obtain rfl | ((messages | ⟨enumeration, inside, enums⟩) | ⟨descriptor, inside, services⟩) |
    extensions := listed
  · rfl
  · exact stands_of_mem_ofMessages (fun _ inside => .outermost inside) messages
  · exact stands_of_mem_ofEnum (.outermost inside) enums
  · exact stands_of_mem_ofService inside services
  · exact stands_of_mem_ofExtensions (fun _ inside => .outermost inside) extensions

/-! ## Everything is declared -/

theorem ofMessage_subset_ofMessages (scope : String) (path : Path) (index : Nat)
    {messages : List MessageDescriptor} {descriptor : MessageDescriptor}
    (inside : descriptor ∈ messages) :
    ∃ place, ofMessage scope place descriptor ⊆ ofMessages scope path index messages := by
  induction messages generalizing index with
  | nil => cases inside
  | cons first rest inductionHypothesis =>
      rw [ofMessages]
      rcases List.mem_cons.mp inside with rfl | later
      · exact ⟨_, List.subset_append_left ..⟩
      · obtain ⟨place, within⟩ := inductionHypothesis (index + 1) later
        exact ⟨place, List.subset_append_of_subset_right _ within⟩

section

variable {tree : FileDescriptor} {scope : String}

theorem ofMessage_subset_ofFile {descriptor : MessageDescriptor}
    (placed : MessageIn tree scope descriptor) :
    ∃ path, ofMessage scope path descriptor ⊆ ofFile tree := by
  induction placed with
  | outermost inside =>
      obtain ⟨path, within⟩ := ofMessage_subset_ofMessages tree.package [4] 0 inside
      refine ⟨path, fun declaration listed => ?_⟩
      simp [ofFile, within listed]
  | @nested scope outer message _ inside inductionHypothesis =>
      obtain ⟨above, outerWithin⟩ := inductionHypothesis
      obtain ⟨path, within⟩ :=
        ofMessage_subset_ofMessages (join scope outer.name) (above ++ [3]) 0 inside
      refine ⟨path, fun declaration listed => outerWithin ?_⟩
      simp [ofMessage, within listed]

theorem message_mem_ofFile {descriptor : MessageDescriptor}
    (placed : MessageIn tree scope descriptor) :
    message (join scope descriptor.name) descriptor ∈ ofFile tree := by
  obtain ⟨path, within⟩ := ofMessage_subset_ofFile placed
  apply within
  simp [ofMessage]

theorem field_mem_ofFile {descriptor : MessageDescriptor} {declared : FieldDescriptor}
    (placed : MessageIn tree scope descriptor) (inside : declared ∈ descriptor.fields) :
    ∃ path index, field (join (join scope descriptor.name) declared.name) path
      (join scope descriptor.name) descriptor index declared ∈ ofFile tree := by
  obtain ⟨path, within⟩ := ofMessage_subset_ofFile placed
  obtain ⟨index, bound, rfl⟩ := List.mem_iff_getElem.mp inside
  refine ⟨path ++ [2, index], index, within ?_⟩
  have listed : field (join (join scope descriptor.name) descriptor.fields[index].name)
      (path ++ [2, index]) (join scope descriptor.name) descriptor index
      descriptor.fields[index] ∈ ofFields (join scope descriptor.name) path descriptor :=
    List.mem_mapIdx.mpr ⟨index, bound, rfl⟩
  simp [ofMessage, listed]

theorem oneof_mem_ofFile {descriptor : MessageDescriptor} {declared : OneofDescriptor}
    (placed : MessageIn tree scope descriptor) (inside : declared ∈ descriptor.oneofs) :
    oneof (join (join scope descriptor.name) declared.name) declared ∈ ofFile tree := by
  obtain ⟨path, within⟩ := ofMessage_subset_ofFile placed
  apply within
  simp only [ofMessage, List.mem_cons, List.mem_append, List.mem_map]
  exact .inr (.inl (.inl (.inl (.inl ⟨declared, inside, rfl⟩))))

theorem ofEnum_subset_ofFile {enumeration : EnumDescriptor}
    (placed : EnumIn tree scope enumeration) : ofEnum scope enumeration ⊆ ofFile tree := by
  intro declaration listed
  cases placed with
  | outermost inside =>
      simp only [ofFile, List.mem_cons, List.mem_append, List.mem_flatMap]
      exact .inr (.inl (.inl (.inr ⟨enumeration, inside, listed⟩)))
  | nested messagePlaced inside =>
      obtain ⟨path, within⟩ := ofMessage_subset_ofFile messagePlaced
      apply within
      simp only [ofMessage, List.mem_cons, List.mem_append, List.mem_flatMap]
      exact .inr (.inl (.inr ⟨enumeration, inside, listed⟩))

theorem enum_mem_ofFile {enumeration : EnumDescriptor} (placed : EnumIn tree scope enumeration) :
    enum (join scope enumeration.name) enumeration ∈ ofFile tree :=
  ofEnum_subset_ofFile placed List.mem_cons_self

theorem enumValue_mem_ofFile {enumeration : EnumDescriptor} {value : EnumValueDescriptor}
    (placed : EnumIn tree scope enumeration) (inside : value ∈ enumeration.values) :
    ∃ index, enumValue (join scope value.name) enumeration index value ∈ ofFile tree := by
  obtain ⟨index, bound, rfl⟩ := List.mem_iff_getElem.mp inside
  refine ⟨index, ofEnum_subset_ofFile placed (List.mem_cons_of_mem _ ?_)⟩
  exact List.mem_mapIdx.mpr ⟨index, bound, rfl⟩

theorem ofService_subset_ofFile {descriptor : ServiceDescriptor}
    (inside : descriptor ∈ tree.services) :
    ofService tree.package descriptor ⊆ ofFile tree := by
  intro declaration listed
  simp only [ofFile, List.mem_cons, List.mem_append, List.mem_flatMap]
  exact .inr (.inl (.inr ⟨descriptor, inside, listed⟩))

theorem service_mem_ofFile {descriptor : ServiceDescriptor}
    (inside : descriptor ∈ tree.services) :
    service (join tree.package descriptor.name) descriptor ∈ ofFile tree :=
  ofService_subset_ofFile inside List.mem_cons_self

theorem method_mem_ofFile {descriptor : ServiceDescriptor} {declared : MethodDescriptor}
    (serviceInside : descriptor ∈ tree.services) (inside : declared ∈ descriptor.methods) :
    method (join (join tree.package descriptor.name) declared.name) declared ∈ ofFile tree :=
  ofService_subset_ofFile serviceInside
    (List.mem_cons_of_mem _ (List.mem_map.mpr ⟨declared, inside, rfl⟩))

theorem extension_mem_ofExtensions (scope : String) (path : Path)
    {fields : List FieldDescriptor} {declared : FieldDescriptor} (inside : declared ∈ fields) :
    ∃ place, extension (join scope declared.name) place declared ∈
      ofExtensions scope path fields := by
  obtain ⟨index, bound, rfl⟩ := List.mem_iff_getElem.mp inside
  exact ⟨path ++ [index], List.mem_mapIdx.mpr ⟨index, bound, rfl⟩⟩

theorem extension_mem_ofFile {declared : FieldDescriptor}
    (placed : ExtensionIn tree scope declared) :
    ∃ path, extension (join scope declared.name) path declared ∈ ofFile tree := by
  cases placed with
  | outermost inside =>
      obtain ⟨path, listed⟩ := extension_mem_ofExtensions tree.package [7] inside
      refine ⟨path, ?_⟩
      simp [ofFile, listed]
  | @nested scope message _ messagePlaced inside =>
      obtain ⟨above, within⟩ := ofMessage_subset_ofFile messagePlaced
      obtain ⟨path, listed⟩ :=
        extension_mem_ofExtensions (join scope message.name) (above ++ [6]) inside
      refine ⟨path, within ?_⟩
      simp [ofMessage, listed]

theorem exists_mem_ofFile {kind : DefinitionKind} {name : String}
    (declared : Declares tree kind scope name) :
    ∃ declaration ∈ ofFile tree,
      declaration.kind = kind ∧ declaration.fullName = join scope name := by
  cases declared with
  | package => exact ⟨file tree, List.mem_cons_self, rfl, rfl⟩
  | message placed => exact ⟨_, message_mem_ofFile placed, rfl, rfl⟩
  | field placed inside =>
      obtain ⟨path, index, listed⟩ := field_mem_ofFile placed inside
      exact ⟨_, listed, rfl, rfl⟩
  | oneof placed inside => exact ⟨_, oneof_mem_ofFile placed inside, rfl, rfl⟩
  | service inside => exact ⟨_, service_mem_ofFile inside, rfl, rfl⟩
  | method serviceInside inside => exact ⟨_, method_mem_ofFile serviceInside inside, rfl, rfl⟩
  | enum placed => exact ⟨_, enum_mem_ofFile placed, rfl, rfl⟩
  | enumValue placed inside =>
      obtain ⟨index, listed⟩ := enumValue_mem_ofFile placed inside
      exact ⟨_, listed, rfl, rfl⟩
  | extension placed =>
      obtain ⟨path, listed⟩ := extension_mem_ofFile placed
      exact ⟨_, listed, rfl, rfl⟩

end

/-! ## The declarations of all files -/

theorem mem_ofFiles_iff {files : List FileDescriptor} {index : Nat} {declaration : Declaration} :
    (index, declaration) ∈ ofFiles files ↔
      ∃ tree, files[index]? = some tree ∧ declaration ∈ ofFile tree := by
  simp only [ofFiles, List.mem_flatten, List.mem_mapIdx]
  constructor
  · rintro ⟨_, ⟨position, bound, rfl⟩, listed⟩
    obtain ⟨same, inside, equal⟩ := List.mem_map.mp listed
    obtain ⟨rfl, rfl⟩ := Prod.mk.inj equal
    exact ⟨files[position], List.getElem?_eq_getElem bound, inside⟩
  · rintro ⟨tree, found, inside⟩
    obtain ⟨bound, rfl⟩ := List.getElem?_eq_some_iff.mp found
    exact ⟨_, ⟨index, bound, rfl⟩, List.mem_map.mpr ⟨declaration, inside, rfl⟩⟩

theorem mem_filterMap_iff {files : List FileDescriptor} {Thing : Type}
    {take : Declaration → Option Thing} {thing : Thing} :
    thing ∈ ((ofFiles files).map Prod.snd).filterMap take ↔
      ∃ tree ∈ files, ∃ declaration ∈ ofFile tree, take declaration = some thing := by
  rw [List.filterMap_map, List.mem_filterMap]
  constructor
  · rintro ⟨⟨index, declaration⟩, listed, taken⟩
    obtain ⟨tree, found, declared⟩ := mem_ofFiles_iff.mp listed
    exact ⟨tree, List.mem_of_getElem? found, declaration, declared, taken⟩
  · rintro ⟨tree, inside, declaration, declared, taken⟩
    obtain ⟨index, found⟩ := List.mem_iff_getElem?.mp inside
    exact ⟨(index, declaration), mem_ofFiles_iff.mpr ⟨tree, found, declared⟩, taken⟩

end Declaration

end ByteListing.Schema
