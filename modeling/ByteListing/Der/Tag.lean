import ByteListing.Bytes.Base128

/-! # Tags

A tag is the identifier of an element: its class, whether the body holds elements, and a
number.  Numbers up to thirty stand in the first octet; larger ones follow it in base 128,
most significant group first and possibly padded, and stay below `2 ^ 32`. -/
set_option autoImplicit false
namespace ByteListing.Der

inductive TagClass where
  | universal
  | application
  | contextSpecific
  | privateUse
deriving Repr, DecidableEq

structure Tag where
  tagClass : TagClass
  constructed : Bool
  number : Nat
deriving Repr, DecidableEq

namespace Tag

def classOf (octet : UInt8) : TagClass :=
  if octet < 0x40 then .universal
  else if octet < 0x80 then .application
  else if octet < 0xC0 then .contextSpecific
  else .privateUse

def constructedIn (octet : UInt8) : Bool := octet.toNat / 32 % 2 == 1

def parse? : Bytes → Option (Tag × Bytes)
  | [] => none
  | first :: rest =>
    let low := first.toNat % 32
    if low = 31 then
      (Base128.mostFirst? (Nat.pow 2 32) 0 rest).map fun (number, remaining) =>
        (⟨classOf first, constructedIn first, number⟩, remaining)
    else
      some (⟨classOf first, constructedIn first, low⟩, rest)

def isUniversal (tag : Tag) (number : Nat) : Bool :=
  tag.tagClass == .universal && tag.number == number

def universalName? : Nat → Option String
  | 1 => some "BOOLEAN"
  | 2 => some "INTEGER"
  | 3 => some "BIT_STRING"
  | 4 => some "OCTET_STRING"
  | 5 => some "NULL"
  | 6 => some "OBJECT_IDENTIFIER"
  | 7 => some "OBJECT_DESCRIPTOR"
  | 8 => some "EXTERNAL"
  | 9 => some "REAL"
  | 10 => some "ENUMERATED"
  | 11 => some "EMBEDDED_PDV"
  | 12 => some "UTF8String"
  | 13 => some "RELATIVE_OID"
  | 16 => some "SEQUENCE"
  | 17 => some "SET"
  | 18 => some "NumericString"
  | 19 => some "PrintableString"
  | 20 => some "T61String"
  | 21 => some "VideotexString"
  | 22 => some "IA5String"
  | 23 => some "UTCTime"
  | 24 => some "GeneralizedTime"
  | 25 => some "GraphicString"
  | 26 => some "VisibleString"
  | 27 => some "GeneralString"
  | 28 => some "UniversalString"
  | 30 => some "BMPString"
  | _ => none

/-- Whether bodies under this tag normally hold elements.  Universal types are primitive
except the structured ones; all other tags default to constructed. -/
def usuallyConstructed (tag : Tag) : Bool :=
  match tag.tagClass with
  | .universal => tag.number == 8 || tag.number == 11 || tag.number == 16 || tag.number == 17
  | _ => true

def isUnusual (tag : Tag) : Bool := tag.constructed != tag.usuallyConstructed

def classPart : TagClass → String
  | .universal => "UNIVERSAL "
  | .application => "APPLICATION "
  | .contextSpecific => ""
  | .privateUse => "PRIVATE "

def formPart (tag : Tag) : String :=
  if tag.isUnusual then (if tag.constructed then " CONSTRUCTED" else " PRIMITIVE") else ""

/-- A tag by class, number and form, as in `[APPLICATION 2 PRIMITIVE]`. -/
def bracketed (tag : Tag) : String :=
  "[" ++ classPart tag.tagClass ++ toString tag.number ++ tag.formPart ++ "]"

def displayName (tag : Tag) : String :=
  if tag.tagClass = .universal ∧ tag.isUnusual = false then
    (universalName? tag.number).getD tag.bracketed
  else
    tag.bracketed

end Tag

end ByteListing.Der
