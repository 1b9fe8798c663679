import ByteListing.Wire.Varint

/-! # Fields

A field is a tag and a value.  The tag is a varint of the field number and, in its low three
bits, the wire type; the wire type says how the value is written.  Groups are not values: their
start and their end are fields of their own.

`Field.parse` reads one field, `Field.parseAll` reads fields until one does not parse, and
`isMessage` asks for fields throughout with every group ended by its own number. -/
set_option autoImplicit false
namespace ByteListing.Wire

inductive WireType where
  | varint
  | fixed64
  | lengthDelimited
  | startGroup
  | endGroup
  | fixed32
deriving Repr, DecidableEq

namespace WireType

def name : WireType → String
  | varint => "VARINT"
  | fixed64 => "I64"
  | lengthDelimited => "LEN"
  | startGroup => "SGROUP"
  | endGroup => "EGROUP"
  | fixed32 => "I32"

def ofCode? : Nat → Option WireType
  | 0 => some varint
  | 1 => some fixed64
  | 2 => some lengthDelimited
  | 3 => some startGroup
  | 4 => some endGroup
  | 5 => some fixed32
  | _ => none

end WireType

inductive FieldValue where
  | varint (value : Nat)
  | fixed64 (value : Nat)
  | lengthDelimited (payload : Bytes)
  | startGroup
  | endGroup
  | fixed32 (value : Nat)
deriving Repr, DecidableEq

def FieldValue.wireType : FieldValue → WireType
  | varint _ => .varint
  | fixed64 _ => .fixed64
  | lengthDelimited _ => .lengthDelimited
  | startGroup => .startGroup
  | endGroup => .endGroup
  | fixed32 _ => .fixed32

structure Field where
  number : Nat
  value : FieldValue
deriving Repr, DecidableEq

namespace Field

def maxNumber : Nat := Nat.pow 2 29 - 1

inductive Flaw where
  | noData
  | tagUnended
  | wireType (code : Nat)
  | number (value : Nat)
  | varintUnended
  | fixed64Short
  | lengthUnended
  | payloadShort (needed available : Nat)
  | fixed32Short
deriving Repr, DecidableEq

namespace Flaw

def describe : Flaw → String
  | noData => "empty data"
  | tagUnended => "failed to decode field tag"
  | wireType code => "unknown wire type: " ++ toString code
  | number value => "invalid field number " ++ toString value
  | varintUnended => "failed to decode varint value"
  | fixed64Short => "not enough bytes for I64"
  | lengthUnended => "failed to decode length prefix"
  | payloadShort needed available =>
    "not enough bytes for LEN field (need " ++ toString needed ++ ", have " ++
      toString available ++ ")"
  | fixed32Short => "not enough bytes for I32"

end Flaw

def parseValue (wireType : WireType) (data : Bytes) : Except Flaw (FieldValue × Nat) :=
  match wireType with
  | .varint =>
    match Varint.decode? data with
    | some (value, length) => .ok (.varint value, length)
    | none => .error .varintUnended
  | .fixed64 =>
    if 8 ≤ data.length then .ok (.fixed64 (Bytes.littleEndian (data.take 8)), 8)
    else .error .fixed64Short
  | .lengthDelimited =>
    match Varint.decode? data with
    | none => .error .lengthUnended
    | some (size, length) =>
      let contents := data.drop length
      if size ≤ contents.length then
        .ok (.lengthDelimited (contents.take size), length + size)
      else
        .error (.payloadShort size contents.length)
  | .startGroup => .ok (.startGroup, 0)
  | .endGroup => .ok (.endGroup, 0)
  | .fixed32 =>
    if 4 ≤ data.length then .ok (.fixed32 (Bytes.littleEndian (data.take 4)), 4)
    else .error .fixed32Short

def parseTag (data : Bytes) : Except Flaw (Nat × WireType × Nat) :=
  if data.isEmpty then
    .error .noData
  else
    match Varint.decode? data with
    | none => .error .tagUnended
    | some (tag, length) =>
      match WireType.ofCode? (tag % 8) with
      | none => .error (.wireType (tag % 8))
      | some wireType =>
        if tag / 8 = 0 ∨ maxNumber < tag / 8 then .error (.number (tag / 8))
        else .ok (tag / 8, wireType, length)

/-- Reads a field from the start of a byte string: the field and the number of octets it
takes.  A flaw comes with the position of the tag or of the value, whichever is flawed. -/
def parse (data : Bytes) : Except (Nat × Flaw) (Field × Nat) :=
  match parseTag data with
  | .error flaw => .error (0, flaw)
  | .ok (number, wireType, tagLength) =>
    match parseValue wireType (data.drop tagLength) with
    | .error flaw => .error (tagLength, flaw)
    | .ok (value, valueLength) => .ok (⟨number, value⟩, tagLength + valueLength)

def read (offset : Nat) (data : Bytes) : Except Fault (Field × Nat) :=
  match parse data with
  | .ok result => .ok result
  | .error (position, flaw) => .error (.malformedField (offset + position) flaw.describe)

/-- Reads fields from the start of a byte string on: those that parse, with the number of
octets that each takes, and the input from the first position where none does. -/
def parseAll (data : Bytes) : List (Field × Nat) × Bytes :=
  if data.isEmpty then
    ([], [])
  else
    match parse data with
    | .error _ => ([], data)
    | .ok (field, length) =>
      if _ : 0 < length ∧ length ≤ data.length then
        let following := parseAll (data.drop length)
        ((field, length) :: following.1, following.2)
      else
        ([], data)
termination_by data.length
decreasing_by exact Bytes.length_drop_lt ‹_›

end Field

/-- Whether fields end exactly the groups they start and those in `opened`, innermost first. -/
def groupsBalance : (opened : List Nat) → List Field → Bool
  | opened, [] => opened.isEmpty
  | opened, field :: rest =>
    match field.value with
    | .startGroup => groupsBalance (field.number :: opened) rest
    | .endGroup =>
      match opened with
      | innermost :: outer => innermost == field.number && groupsBalance outer rest
      | [] => false
    | _ => groupsBalance opened rest

/-- A byte string that consists of fields, at least one, and whose groups balance. -/
def isMessage (data : Bytes) : Bool :=
  let (fields, remaining) := Field.parseAll data
  !fields.isEmpty && remaining.isEmpty && groupsBalance [] (fields.map Prod.fst)

end ByteListing.Wire
