import ByteListing.Der.Request
import ByteListing.Wire.Listing

/-! # Calls from a host

A host calls operations by name, with values that it does not know the types of.  The number
and the shapes of the arguments are checked first, whatever is stored; a call that passes is a
query. -/
set_option autoImplicit false
namespace ByteListing.Host

inductive Value where
  | null
  | boolean (value : Bool)
  | integer (value : Int)
  | text (value : String)
  | bytes (value : Bytes)
deriving Repr, DecidableEq

namespace Value

def shape : Value → String
  | null => "null"
  | boolean _ => "boolean"
  | integer _ => "integer"
  | text _ => "string"
  | bytes _ => "bytes"

def isNull : Value → Bool
  | null => true
  | _ => false

end Value

inductive Operation where
  | createBlob
  | listClasses
  | listMethods
  | listInstructions
  | decodeDer
  | decodeProto
deriving Repr, DecidableEq

namespace Operation

def all : List Operation :=
  [createBlob, listClasses, listMethods, listInstructions, decodeDer, decodeProto]

def name : Operation → String
  | createBlob => "createBlob"
  | listClasses => "listClasses"
  | listMethods => "listMethods"
  | listInstructions => "listInstructions"
  | decodeDer => "decodeDer"
  | decodeProto => "decodeProto"

def ofName? (text : String) : Option Operation := all.find? fun operation => operation.name == text

end Operation

inductive Refusal where
  | unknownOperation
  | count (expected : String) (found : Nat)
  | shape (position : Nat) (argument expected found : String)
deriving Repr, DecidableEq

namespace Refusal

def describe : Refusal → String
  | unknownOperation => "unknown operation"
  | count expected found =>
    "invalid number of arguments: expected " ++ expected ++ ", got " ++ toString found
  | shape position argument expected found =>
    "argument " ++ toString position ++ " (" ++ argument ++ ") must be " ++ expected ++ ", got " ++
      found

end Refusal

inductive Query where
  | createBlob (data : Bytes)
  | listClasses (handle : Nat)
  | listMethods (handle : Nat) (className : String)
  | listInstructions (handle : Nat) (className methodName : String)
  | decodeDer (data : Bytes) (request : Der.Request)
  | decodeProto (data : Bytes) (type : Option Wire.TypeReference)
deriving Repr, DecidableEq

abbrev Arguments := List Value

namespace Arguments

def checkCount (arguments : Arguments) (expected : List Nat) (wording : String) :
    Except Refusal Unit :=
  if expected.contains arguments.length then .ok ()
  else .error (.count wording arguments.length)

def refuse (arguments : Arguments) (index : Nat) (argument expected : String) : Refusal :=
  .shape (index + 1) argument expected ((arguments[index]?.map Value.shape).getD "nothing")

def bytes (arguments : Arguments) (index : Nat) (argument : String) : Except Refusal Bytes :=
  match arguments[index]? with
  | some (.bytes value) => .ok value
  | _ => .error (arguments.refuse index argument "bytes")

def bytes? (arguments : Arguments) (index : Nat) (argument : String) :
    Except Refusal (Option Bytes) :=
  match arguments[index]? with
  | none | some .null => .ok none
  | some (.bytes value) => .ok (some value)
  | _ => .error (arguments.refuse index argument "bytes")

def text (arguments : Arguments) (index : Nat) (argument : String) : Except Refusal String :=
  match arguments[index]? with
  | some (.text value) => .ok value
  | _ => .error (arguments.refuse index argument "a string")

def text? (arguments : Arguments) (index : Nat) (argument : String) :
    Except Refusal (Option String) :=
  match arguments[index]? with
  | none | some .null => .ok none
  | some (.text value) => .ok (some value)
  | _ => .error (arguments.refuse index argument "a string")

/-- An argument that has to be a flag; one that is left out is not set. -/
def flag (arguments : Arguments) (index : Nat) (argument : String) : Except Refusal Bool :=
  match arguments[index]? with
  | none | some .null => .ok false
  | some (.boolean value) => .ok value
  | _ => .error (arguments.refuse index argument "a boolean")

def handle (arguments : Arguments) : Except Refusal Nat :=
  match arguments.head? with
  | some (.integer value) =>
    if 0 ≤ value then .ok value.toNat
    else .error (arguments.refuse 0 "blob handle" "a non-negative integer")
  | _ => .error (arguments.refuse 0 "blob handle" "an integer")

def request (arguments : Arguments) : Except Refusal Der.Request := do
  let pem ← arguments.flag 1 "PEM mode"
  let allPem ← arguments.flag 2 "all-blocks PEM mode"
  let hex ← arguments.flag 4 "hex mode"
  let password ← arguments.text? 3 "PEM password"
  return (((({} : Der.Request).withPem pem).withAllPem allPem).withHex hex).withPassword
    (password.getD "")

/-- The schema and the name of a type in it; without a schema the name is not looked at. -/
def type (arguments : Arguments) : Except Refusal (Option Wire.TypeReference) := do
  match ← arguments.bytes? 1 "message descriptor bytes" with
  | none => return none
  | some schema => return some ⟨schema, ← arguments.text 2 "message name"⟩

/-- The wording of the numbers of arguments of `decodeProto`.  Two arguments are refused with
more words, since a schema without a name is an easy mistake. -/
def protoCount (arguments : Arguments) : String :=
  if arguments.length = 2 then
    "1 (protobuf bytes) or 3 (protobuf bytes, message descriptor bytes, message name string)"
  else
    "1 or 3"

def query (arguments : Arguments) : Operation → Except Refusal Query
  | .createBlob => do
    arguments.checkCount [1] "1"
    return .createBlob (← arguments.bytes 0 "blob bytes")
  | .listClasses => do
    arguments.checkCount [1] "1"
    return .listClasses (← arguments.handle)
  | .listMethods => do
    arguments.checkCount [2] "2"
    return .listMethods (← arguments.handle) (← arguments.text 1 "class name")
  | .listInstructions => do
    arguments.checkCount [3] "3"
    return .listInstructions (← arguments.handle) (← arguments.text 1 "class name")
      (← arguments.text 2 "method name")
  | .decodeDer => do
    arguments.checkCount [1, 2, 3, 4, 5] "1 to 5"
    return .decodeDer (← arguments.bytes 0 "input bytes") (← arguments.request)
  | .decodeProto => do
    arguments.checkCount [1, 3] arguments.protoCount
    return .decodeProto (← arguments.bytes 0 "protobuf bytes") (← arguments.type)

end Arguments

def readCall (operation : String) (arguments : Arguments) : Except Fault Query :=
  let read : Except Refusal Query :=
    match Operation.ofName? operation with
    | none => .error .unknownOperation
    | some found => arguments.query found
  match read with
  | .ok query => .ok query
  | .error refusal => .error (.invalidArgument operation refusal.describe)

end ByteListing.Host
