/-! # Pools of types

A pool holds what a checked schema declares, each thing under its full name: the types that a
listing needs to interpret fields, and the names of everything else that a name could refer
to. -/
set_option autoImplicit false
namespace ByteListing.Schema

/-- What a field holds.  Messages and enumerations are referred to by full name. -/
inductive Kind where
  | double
  | float
  | int64
  | uint64
  | int32
  | fixed64
  | fixed32
  | bool
  | string
  | message (fullName : String)
  | bytes
  | uint32
  | enumeration (fullName : String)
  | sfixed32
  | sfixed64
  | sint32
  | sint64
deriving Repr, DecidableEq

structure FieldType where
  name : String
  number : Int
  kind : Kind
  repeated : Bool
deriving Repr, DecidableEq

structure MessageType where
  name : String
  fullName : String
  fields : List FieldType
  oneofs : List String
deriving Repr, DecidableEq

/-- An extension: a field that belongs to the message type with the full name `extendee`. -/
structure ExtensionType where
  fullName : String
  extendee : String
  field : FieldType
deriving Repr, DecidableEq

structure EnumType where
  fullName : String
  values : List (String × Int)
deriving Repr, DecidableEq

structure ServiceType where
  fullName : String
  methods : List String
deriving Repr, DecidableEq

structure Pool where
  packages : List String := []
  messages : List MessageType := []
  enums : List EnumType := []
  services : List ServiceType := []
  extensions : List ExtensionType := []
deriving Repr, DecidableEq

def splitLast? (name : String) : Option (String × String) :=
  let reversed := name.toList.reverse
  let leaf := reversed.takeWhile (· ≠ '.')
  match reversed.drop leaf.length with
  | [] => none
  | _ :: scope => some (String.ofList scope.reverse, String.ofList leaf.reverse)

def scopeOf (name : String) : String :=
  match splitLast? name with
  | some (scope, _) => scope
  | none => ""

namespace MessageType

def field? (message : MessageType) (number : Nat) : Option FieldType :=
  message.fields.find? fun field => field.number == (number : Int)

def fieldNamed? (message : MessageType) (name : String) : Option FieldType :=
  message.fields.find? fun field => field.name == name

end MessageType

namespace EnumType

def nameOf? (enumeration : EnumType) (number : Int) : Option String :=
  (enumeration.values.find? fun value => value.2 == number).map Prod.fst

end EnumType

namespace Pool

def message? (pool : Pool) (fullName : String) : Option MessageType :=
  pool.messages.find? fun message => message.fullName == fullName

def enum? (pool : Pool) (fullName : String) : Option EnumType :=
  pool.enums.find? fun enumeration => enumeration.fullName == fullName

def extension? (pool : Pool) (fullName : String) : Option ExtensionType :=
  pool.extensions.find? fun extension => extension.fullName == fullName

def service? (pool : Pool) (fullName : String) : Option ServiceType :=
  pool.services.find? fun service => service.fullName == fullName

end Pool

end ByteListing.Schema
