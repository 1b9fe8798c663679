/-! # Flaws of schemas

What can be wrong with a schema: its bytes may be no set of file descriptors, or the files may
contradict themselves or one another. -/
set_option autoImplicit false
namespace ByteListing.Schema

inductive Expectation where
  | message
  | messageOrEnum
  | extension
deriving Repr, DecidableEq

namespace Expectation

def describe : Expectation → String
  | message => "a message type"
  | messageOrEnum => "a message or enum type"
  | extension => "an extension"

end Expectation

inductive Flaw where
  | undecodable
  | duplicateFile (name : String)
  | definedTwice (name : String)
  | definedElsewhere (name file : String)
  | camelCaseConflict (first second : String)
  | emptyEnum
  | firstEnumValueNotZero
  | importMissing (file : String)
  | importIndex
  | fieldNumber (number : Int)
  | numberReserved (number first last : Int)
  | numberForExtensions (number first last : Int)
  | missingField (path : List Nat)
  | defaultValue (value type : String)
  | oneofIndex
  | numberUsed (number : Int)
  | jsonNameUsed (name : String)
  | undefined (name : String)
  | shadowed (name candidate : String)
  | wrongKind (name : String) (expected : Expectation)
  | enumNumberReserved (number first last : Int)
  | enumNumberUsed (number : Int)
  | notAnExtensionNumber (message : String) (number : Int)
  | unknownOption (name : String)
  | optionExtendee (expected extension actual : String)
  | optionScalar (name type : String)
  | optionSetTwice (name : String)
  | optionValue (name type value : String)
deriving Repr, DecidableEq

namespace Flaw

def describeRange (first last : Int) : String :=
  "range '" ++ toString first ++ " to " ++ toString last ++ "'"

def describe : Flaw → String
  | undecodable => "failed to decode file descriptor set"
  | duplicateFile name => "a different file named '" ++ name ++ "' has already been added"
  | definedTwice name => "name '" ++ name ++ "' is defined twice"
  | definedElsewhere name file =>
    "name '" ++ name ++ "' is already defined in file '" ++ file ++ "'"
  | camelCaseConflict first second =>
    "camel-case name of field '" ++ first ++ "' conflicts with field '" ++ second ++ "'"
  | emptyEnum => "enums must have at least one value"
  | firstEnumValueNotZero => "the first value for proto3 enums must be 0"
  | importMissing file => "imported file '" ++ file ++ "' has not been added"
  | importIndex => "invalid import index"
  | fieldNumber number => "invalid field number '" ++ toString number ++ "'"
  | numberReserved number first last =>
    "field number '" ++ toString number ++ "' conflicts with reserved " ++
      describeRange first last
  | numberForExtensions number first last =>
    "field number '" ++ toString number ++ "' conflicts with extension " ++
      describeRange first last
  | missingField path =>
    "missing required field at [" ++ ", ".intercalate (path.map toString) ++ "]"
  | defaultValue value type =>
    "invalid default value '" ++ value ++ "' for type '" ++ type ++ "'"
  | oneofIndex => "invalid oneof index"
  | numberUsed number => "field number '" ++ toString number ++ "' is already used"
  | jsonNameUsed name => "a field with JSON name '" ++ name ++ "' is already defined"
  | undefined name => "name '" ++ name ++ "' is not defined"
  | shadowed name candidate =>
    "'" ++ name ++ "' resolves to '" ++ candidate ++ "', which is not defined"
  | wrongKind name expected => "'" ++ name ++ "' is not " ++ expected.describe
  | enumNumberReserved number first last =>
    "enum number '" ++ toString number ++ "' conflicts with reserved " ++
      describeRange first last
  | enumNumberUsed number => "enum number '" ++ toString number ++ "' has already been used"
  | notAnExtensionNumber message number =>
    "message '" ++ message ++ "' does not define '" ++ toString number ++
      "' as an extension number"
  | unknownOption name => "option field '" ++ name ++ "' is not defined"
  | optionExtendee expected extension actual =>
    "expected an extension to type '" ++ expected ++ "', but '" ++ extension ++
      "' extends '" ++ actual ++ "'"
  | optionScalar name type =>
    "cannot set field for option '" ++ name ++ "' value of type '" ++ type ++ "'"
  | optionSetTwice name => "option field '" ++ name ++ "' has already been set"
  | optionValue name type value =>
    "expected a value of type '" ++ type ++ "' for option '" ++ name ++ "', but found '" ++
      value ++ "'"

end Flaw

end ByteListing.Schema
