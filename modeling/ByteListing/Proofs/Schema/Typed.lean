import ByteListing.Proofs.Schema.Entered
import ByteListing.Schema.Typing

/-! # Typed declarations

What the checks of declarations leave behind.  A pool is put together from what each declaration
adds to it (`foldl_addTo`), and the types of fields and extensions are found for exactly the
fields and extensions that the files declare. -/
set_option autoImplicit false
namespace ByteListing.Schema

namespace Typing

/-! ## What a declaration adds to a pool -/

def package? : Declaration → Option String
  | .file tree => some tree.package
  | _ => none

def messageType (findings : List Finding) (fullName : String) (message : MessageDescriptor) :
    MessageType :=
  ⟨message.name, fullName, findings.filterMap (Finding.fieldOf? fullName),
    message.oneofs.map OneofDescriptor.name⟩

def messageType? (findings : List Finding) : Declaration → Option MessageType
  | .message fullName message => some (messageType findings fullName message)
  | _ => none

def enumType (fullName : String) (enumeration : EnumDescriptor) : EnumType :=
  ⟨fullName, enumeration.values.map fun value => (value.name, value.number)⟩

def enumType? : Declaration → Option EnumType
  | .enum fullName enumeration => some (enumType fullName enumeration)
  | _ => none

def serviceType (fullName : String) (service : ServiceDescriptor) : ServiceType :=
  ⟨fullName, service.methods.map MethodDescriptor.name⟩

def serviceType? : Declaration → Option ServiceType
  | .service fullName service => some (serviceType fullName service)
  | _ => none

def poolOf (files : List FileDescriptor) (findings : List Finding) : Pool where
  packages := ((Declaration.ofFiles files).map Prod.snd).filterMap package?
  messages := ((Declaration.ofFiles files).map Prod.snd).filterMap (messageType? findings)
  enums := ((Declaration.ofFiles files).map Prod.snd).filterMap enumType?
  services := ((Declaration.ofFiles files).map Prod.snd).filterMap serviceType?
  extensions := findings.filterMap Finding.extension?

theorem foldl_addTo (findings : List Finding) (declarations : List Declaration) (pool : Pool) :
    declarations.foldl (addTo findings) pool =
      { packages := pool.packages ++ declarations.filterMap package?
        messages := pool.messages ++ declarations.filterMap (messageType? findings)
        enums := pool.enums ++ declarations.filterMap enumType?
        services := pool.services ++ declarations.filterMap serviceType?
        extensions := pool.extensions } := by
  induction declarations generalizing pool with
  | nil => simp
  | cons first rest inductionHypothesis =>
      rw [List.foldl_cons, inductionHypothesis]
      cases first <;>
        simp [addTo, package?, messageType?, messageType, enumType?, enumType, serviceType?,
          serviceType, List.filterMap_cons]

/-! ## What the checks find out -/

section

variable {context : Context} {file : Nat}

theorem typeOf_eq_ok {fullName : String} {path : Path} {field : FieldDescriptor}
    {type : FieldType} (success : typeOf context file fullName path field = .ok type) :
    type.name = field.name := by
  obtain ⟨_, _, checking⟩ := exists_of_bind_eq_ok success
  obtain ⟨_, _, returned⟩ := exists_of_bind_eq_ok checking
  rw [← Except.ok.inj returned]

theorem typeField_eq_ok {fullName owner : String} {path : Path} {message : MessageDescriptor}
    {index : Nat} {field : FieldDescriptor} {type : FieldType}
    (success : typeField context file fullName path owner message index field = .ok type) :
    type.name = field.name := by
  obtain ⟨_, _, typing⟩ := exists_of_bind_eq_ok success
  obtain ⟨found, typed, checking⟩ := exists_of_bind_eq_ok typing
  obtain ⟨_, _, returned⟩ := exists_of_bind_eq_ok checking
  rw [← Except.ok.inj returned, typeOf_eq_ok typed]

theorem typeExtension_eq_ok {fullName : String} {path : Path} {field : FieldDescriptor}
    {type : ExtensionType} (success : typeExtension context file fullName path field = .ok type) :
    type.fullName = fullName := by
  obtain ⟨extendee, _, checking⟩ := exists_of_bind_eq_ok success
  dsimp only at checking
  split at checking
  · obtain ⟨_, _, typing⟩ := exists_of_bind_eq_ok checking
    obtain ⟨_, _, returned⟩ := exists_of_bind_eq_ok typing
    rw [← Except.ok.inj returned]
  · obtain ⟨_, _, returned⟩ := exists_of_bind_eq_ok checking
    rw [← Except.ok.inj returned]

def Finding.Tells (declaration : Declaration) : Option Finding → Prop
  | some (.field owner type) => ∃ fullName path message index field,
      declaration = .field fullName path owner message index field ∧ type.name = field.name
  | some (.extension type) => ∃ path field, declaration = .extension type.fullName path field
  | none => declaration.kind ≠ .field ∧ declaration.kind ≠ .extension

theorem tells_of_typeDeclaration {declaration : Declaration} {finding : Option Finding}
    (success : typeDeclaration context file declaration = .ok finding) :
    Finding.Tells declaration finding := by
  cases declaration with
  | field fullName path owner message index field =>
      obtain ⟨type, typed, rfl⟩ := exists_of_map_eq_ok success
      exact ⟨fullName, path, message, index, field, rfl, typeField_eq_ok typed⟩
  | extension fullName path field =>
      obtain ⟨type, typed, rfl⟩ := exists_of_map_eq_ok success
      obtain rfl := typeExtension_eq_ok typed
      exact ⟨path, field, rfl⟩
  | file | enumValue | method =>
      obtain ⟨_, _, rfl⟩ := exists_of_map_eq_ok success
      exact ⟨nofun, nofun⟩
  | message | oneof | enum | service =>
      obtain rfl := Except.ok.inj success
      exact ⟨nofun, nofun⟩

end

/-! ## The pool of all declarations -/

section

variable {context : Context} {files : List FileDescriptor} {findings : List (Option Finding)}

theorem exists_of_pool_eq_ok {types : Pool}
    (success : pool context (Declaration.ofFiles files) = .ok types) :
    ∃ findings : List (Option Finding),
      ((Declaration.ofFiles files).mapM fun (file, declaration) =>
        typeDeclaration context file declaration) = .ok findings ∧
      types = poolOf files (findings.filterMap id) := by
  obtain ⟨findings, found, returned⟩ := exists_of_bind_eq_ok success
  refine ⟨findings, found, ?_⟩
  rw [← Except.ok.inj returned, foldl_addTo]
  rfl

variable (checked : ((Declaration.ofFiles files).mapM fun (file, declaration) =>
  typeDeclaration context file declaration) = .ok findings)

include checked

theorem exists_declaration_of_finding {finding : Finding}
    (found : finding ∈ findings.filterMap id) :
    ∃ tree ∈ files, ∃ declaration ∈ Declaration.ofFile tree,
      Finding.Tells declaration (some finding) := by
  have listed : some finding ∈ findings := by simpa using found
  obtain ⟨⟨file, declaration⟩, declared, success⟩ := exists_item_of_mapM_eq_ok checked listed
  obtain ⟨tree, position, inside⟩ := Declaration.mem_ofFiles_iff.mp declared
  exact ⟨tree, List.mem_of_getElem? position, declaration, inside,
    tells_of_typeDeclaration success⟩

theorem exists_finding_of_declaration {tree : FileDescriptor} {declaration : Declaration}
    (inside : tree ∈ files) (listed : declaration ∈ Declaration.ofFile tree)
    (typed : declaration.kind = .field ∨ declaration.kind = .extension) :
    ∃ finding ∈ findings.filterMap id, Finding.Tells declaration (some finding) := by
  obtain ⟨file, position⟩ := List.mem_iff_getElem?.mp inside
  have declared := Declaration.mem_ofFiles_iff.mpr ⟨tree, position, listed⟩
  obtain ⟨finding, found, success⟩ := exists_value_of_mapM_eq_ok checked declared
  have tells := tells_of_typeDeclaration success
  cases finding with
  | none => exact absurd typed (not_or.mpr tells)
  | some finding => exact ⟨finding, by simpa using found, tells⟩

theorem exists_field_finding_iff {owner name : String} :
    (∃ type, Finding.field owner type ∈ findings.filterMap id ∧ type.name = name) ↔
      DeclaredIn files .field owner name := by
  constructor
  · rintro ⟨type, found, rfl⟩
    obtain ⟨tree, inside, _, listed, _, _, _, _, field, rfl, same⟩ :=
      exists_declaration_of_finding checked found
    obtain ⟨scope, placed, fieldInside, rfl, _⟩ := Declaration.stands_of_mem_ofFile listed
    exact ⟨tree, inside, same ▸ .field placed fieldInside⟩
  · rintro ⟨tree, inside, declares⟩
    cases declares with
    | field placed fieldInside =>
        obtain ⟨path, index, listed⟩ := Declaration.field_mem_ofFile placed fieldInside
        obtain ⟨finding, found, tells⟩ :=
          exists_finding_of_declaration checked inside listed (.inl rfl)
        cases finding with
        | extension type =>
            obtain ⟨_, _, equal⟩ := tells
            cases equal
        | field owner type =>
            obtain ⟨_, _, _, _, _, equal, same⟩ := tells
            cases equal
            exact ⟨type, found, same⟩

theorem exists_extension_finding_iff {fullName : String} :
    (∃ type, Finding.extension type ∈ findings.filterMap id ∧ type.fullName = fullName) ↔
      IsDeclared files .extension fullName := by
  constructor
  · rintro ⟨type, found, rfl⟩
    obtain ⟨tree, inside, _, listed, path, field, rfl⟩ :=
      exists_declaration_of_finding checked found
    obtain ⟨scope, placed, same⟩ := Declaration.stands_of_mem_ofFile listed
    exact ⟨scope, field.name, ⟨tree, inside, .extension placed⟩, same.symm⟩
  · rintro ⟨_, _, ⟨tree, inside, declares⟩, rfl⟩
    cases declares with
    | extension placed =>
        obtain ⟨path, listed⟩ := Declaration.extension_mem_ofFile placed
        obtain ⟨finding, found, tells⟩ :=
          exists_finding_of_declaration checked inside listed (.inr rfl)
        cases finding with
        | field owner type =>
            obtain ⟨_, _, _, _, _, equal, _⟩ := tells
            cases equal
        | extension type =>
            obtain ⟨_, _, equal⟩ := tells
            exact ⟨type, found, (Declaration.extension.inj equal).1.symm⟩

end

end Typing

end ByteListing.Schema
