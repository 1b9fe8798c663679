import ByteListing.Schema.DefaultValue
import ByteListing.Schema.Scope

/-! # The types of a schema

Once all names are known, every declaration is checked and every type that it names is found.
A field number is in the valid range, outside the ranges set aside, and used once; a default
value suits its type; imports exist and are numbered correctly.  What passes becomes the pool
of types. -/
set_option autoImplicit false
namespace ByteListing.Schema.Typing

structure Context where
  files : List FileDescriptor
  names : Names
  visible : List (List Nat)
  messages : List (String × MessageDescriptor)
  enums : List (String × EnumDescriptor)

namespace Context

def ofFiles (files : List FileDescriptor) (declarations : List (Nat × Declaration))
    (names : Names) : Context where
  files := files
  names := names
  visible := (List.range files.length).map (visibleFiles files)
  messages := declarations.filterMap fun
    | (_, .message fullName message) => some (fullName, message)
    | _ => none
  enums := declarations.filterMap fun
    | (_, .enum fullName enumeration) => some (fullName, enumeration)
    | _ => none

def resolve (context : Context) (file : Nat) (expected : Expectation) (place name : String) :
    Except Flaw (String × DefinitionKind) :=
  Scope.resolve context.names ((context.visible[file]?).getD []) expected place name

end Context

def checkImports (files : List FileDescriptor) (file : FileDescriptor) : Except Flaw Unit := do
  for name in file.dependencies do
    if !files.any fun other => other.name == name then
      throw (.importMissing name)
  for position in file.publicDependencies ++ file.weakDependencies do
    if position < 0 ∨ file.dependencies.length ≤ position then
      throw .importIndex

def isValidNumber (number : Int) : Bool :=
  1 ≤ number && number ≤ 536870911 && !(19000 ≤ number && number ≤ 19999)

/-- Checks that a field number is valid and in none of the reserved ranges, which end before
their last number. -/
def checkNumber (reserved : List Range) (number : Int) : Except Flaw Unit :=
  if isValidNumber number then
    match reserved.find? fun range => range.start ≤ number ∧ number < range.stop with
    | some range => .error (.numberReserved number range.start (range.stop - 1))
    | none => .ok ()
  else
    .error (.fieldNumber number)

/-- Checks the number of a field against the message with the given full name.  What says that
it extends a message has a number in one of the ranges for extensions, anything else does not. -/
def checkNumberIn (fullName : String) (message : MessageDescriptor) (field : FieldDescriptor) :
    Except Flaw Unit := do
  let number := field.number
  checkNumber message.reserved number
  let range := message.extensionRanges.find? fun range =>
    range.start ≤ number ∧ number < range.stop
  match range, field.extendee.isSome with
  | some range, false => throw (.numberForExtensions number range.start (range.stop - 1))
  | none, true => throw (.notAnExtensionNumber fullName number)
  | _, _ => return

def kindOf (context : Context) (file : Nat) (place : String) (path : Path)
    (field : FieldDescriptor) : Except Flaw Kind :=
  if field.typeName.isEmpty then
    match field.declaredType with
    | .scalar kind => .ok kind
    | .named => .error (.missingField (path ++ [6]))
  else
    (context.resolve file .messageOrEnum place field.typeName).map fun (fullName, kind) =>
      if kind = .enum then .enumeration fullName else .message fullName

def checkDefault (context : Context) (kind : Kind) : Option String → Except Flaw Unit
  | none => .ok ()
  | some text =>
    let suits :=
      match kind with
      | .enumeration fullName =>
        match context.enums.lookup fullName with
        | some enumeration => enumeration.values.any fun value => value.name == text
        | none => false
      | _ => DefaultValue.isScalar kind text.toList
    if suits then .ok () else .error (.defaultValue text (DefaultValue.kindName kind))

/-- The name that a field has in JSON: the one given, or its own name with the letters behind
underscores in upper case instead. -/
def jsonName (field : FieldDescriptor) : String :=
  let rec camelCase (upper : Bool) : List Char → List Char
    | [] => []
    | c :: rest =>
      if c = '_' then camelCase true rest
      else (if upper then c.toUpper else c) :: camelCase false rest
  field.jsonName.getD (String.ofList (camelCase false field.name.toList))

def checkField (message : MessageDescriptor) (earlier : List FieldDescriptor)
    (field : FieldDescriptor) : Except Flaw Unit := do
  if let some index := field.oneofIndex then
    if index < 0 ∨ message.oneofs.length ≤ index then
      throw .oneofIndex
  if earlier.any fun other => other.number == field.number then
    throw (.numberUsed field.number)
  if earlier.any fun other => jsonName other == jsonName field then
    throw (.jsonNameUsed (field.jsonName.getD ""))

def typeOf (context : Context) (file : Nat) (fullName : String) (path : Path)
    (field : FieldDescriptor) : Except Flaw FieldType := do
  let kind ← kindOf context file fullName path field
  checkDefault context kind field.defaultValue
  return ⟨field.name, field.number, kind, field.repeated⟩

def typeField (context : Context) (file : Nat) (fullName : String) (path : Path)
    (owner : String) (message : MessageDescriptor) (index : Nat) (field : FieldDescriptor) :
    Except Flaw FieldType := do
  checkNumberIn owner message field
  let type ← typeOf context file fullName path field
  checkField message (message.fields.take index) field
  return type

/-- The type of an extension, if everything about it is right.  One that does not say what it
extends extends what has no name. -/
def typeExtension (context : Context) (file : Nat) (fullName : String) (path : Path)
    (field : FieldDescriptor) : Except Flaw ExtensionType := do
  let (extendee, _) ← context.resolve file .message fullName (field.extendee.getD "")
  if let some message := context.messages.lookup extendee then
    checkNumberIn extendee message field
  return ⟨fullName, extendee, ← typeOf context file fullName path field⟩

/-- Checks a value of an enumeration against the ranges set aside, whose ends belong to them,
and the values before it. -/
def checkEnumValue (enumeration : EnumDescriptor) (index : Nat) (value : EnumValueDescriptor) :
    Except Flaw Unit := do
  let number := value.number
  if let some range := enumeration.reserved.find? fun range =>
      range.start ≤ number ∧ number ≤ range.stop then
    throw (.enumNumberReserved number range.start range.stop)
  if !enumeration.allowAlias ∧
      (enumeration.values.take index).any fun other => other.number == number then
    throw (.enumNumberUsed number)

def checkMethod (context : Context) (file : Nat) (fullName : String)
    (method : MethodDescriptor) : Except Flaw Unit := do
  let _ ← context.resolve file .message fullName method.input
  let _ ← context.resolve file .message fullName method.output

inductive Finding where
  | field (owner : String) (type : FieldType)
  | extension (type : ExtensionType)
deriving Repr, DecidableEq

namespace Finding

def fieldOf? (owner : String) : Finding → Option FieldType
  | field message type => if message = owner then some type else none
  | extension _ => none

def extension? : Finding → Option ExtensionType
  | field .. => none
  | extension type => some type

end Finding

def typeDeclaration (context : Context) (file : Nat) (declaration : Declaration) :
    Except Flaw (Option Finding) :=
  match declaration with
  | .file descriptor => (checkImports context.files descriptor).map fun _ => none
  | .field fullName path owner message index field =>
    (typeField context file fullName path owner message index field).map fun type =>
      some (.field owner type)
  | .enumValue _ enumeration index value =>
    (checkEnumValue enumeration index value).map fun _ => none
  | .method fullName method => (checkMethod context file fullName method).map fun _ => none
  | .extension fullName path field =>
    (typeExtension context file fullName path field).map fun type => some (.extension type)
  | .message .. | .oneof .. | .enum .. | .service .. => .ok none

def addTo (findings : List Finding) (pool : Pool) : Declaration → Pool
  | .file file => { pool with packages := pool.packages ++ [file.package] }
  | .message fullName message =>
    let fields := findings.filterMap (Finding.fieldOf? fullName)
    let oneofs := message.oneofs.map OneofDescriptor.name
    { pool with messages := pool.messages ++ [⟨message.name, fullName, fields, oneofs⟩] }
  | .enum fullName enumeration =>
    let values := enumeration.values.map fun value => (value.name, value.number)
    { pool with enums := pool.enums ++ [⟨fullName, values⟩] }
  | .service fullName service =>
    let methods := service.methods.map MethodDescriptor.name
    { pool with services := pool.services ++ [⟨fullName, methods⟩] }
  | .oneof .. | .field .. | .enumValue .. | .method .. | .extension .. => pool

def pool (context : Context) (declarations : List (Nat × Declaration)) : Except Flaw Pool := do
  let findings ← declarations.mapM fun (file, declaration) =>
    typeDeclaration context file declaration
  let found := findings.filterMap id
  let types : Pool := { extensions := found.filterMap Finding.extension? }
  return (declarations.map Prod.snd).foldl (addTo found) types

end ByteListing.Schema.Typing
