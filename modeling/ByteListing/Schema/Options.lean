import ByteListing.Schema.Record

/-! # Options

The options of a declaration are a message of their own.  It is written as its fields, as a list
of options by name, or as both.

The name of an option leads from the options of the declaration through messages inside them to
a field, one part for each step; a part in parentheses names an extension.  The value comes in
one of several forms: a word, a number, a byte string, or the text of a message. -/
set_option autoImplicit false
namespace ByteListing.Schema

structure OptionNamePart where
  name : String
  isExtension : Bool
deriving Repr, DecidableEq

def OptionNamePart.text (part : OptionNamePart) : String :=
  if part.isExtension then "(" ++ part.name ++ ")" else part.name

abbrev OptionName := List OptionNamePart

def OptionName.text (name : OptionName) : String :=
  ".".intercalate (name.map OptionNamePart.text)

/-- An option by name, with the forms in which its value is given.  A floating-point number is
given by its bits. -/
structure NamedOption where
  name : OptionName
  word : Option String
  positive : Option Nat
  negative : Option Int
  float : Option Nat
  octets : Option Bytes
  aggregate : Option String
deriving Repr, DecidableEq

/-- The options of a declaration: the numbers of the fields that are set, and the options by
name. -/
structure Options where
  set : List Nat
  byName : List NamedOption
deriving Repr, DecidableEq

def OptionNamePart.ofRecord (record : Record) : OptionNamePart :=
  ⟨(record.text? 1).getD "", record.flag 2⟩

namespace NamedOption

def ofRecord (record : Record) : NamedOption where
  name := (record.records 2).map OptionNamePart.ofRecord
  word := record.text? 3
  positive := record.number? 4
  negative := (record.number? 5).map (signed 64)
  float := record.number? 6
  octets := record.octets? 7
  aggregate := record.text? 8

def gives (option : NamedOption) (name word : String) : Bool :=
  option.name == [⟨name, false⟩] && option.word == some word

end NamedOption

def Options.ofRecord (record : Record) : Options :=
  ⟨record.map Prod.fst, (record.records 999).map NamedOption.ofRecord⟩

end ByteListing.Schema
