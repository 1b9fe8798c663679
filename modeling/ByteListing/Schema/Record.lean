import ByteListing.Text.Utf8
import ByteListing.Wire.Field

/-! # Records of a known shape

A serialized descriptor is a message whose fields are known beforehand.  It is read strictly:
every known field must be written as its shape says, varints must fit in sixty-four bits, text
must be UTF-8, groups must balance, and messages and groups must not nest too deeply.  Unknown
fields are skipped.

The result is a record: the fields in order, with the values of packed fields one by one and
those of unknown fields left out. -/
set_option autoImplicit false
namespace ByteListing.Schema

open ByteListing.Wire (WireType)

inductive Shape where
  | fileSet
  | file
  | message
  | extensionRange
  | reservedRange
  | field
  | oneof
  | enumeration
  | enumValue
  | service
  | method
  | fileOptions
  | messageOptions
  | fieldOptions
  | oneofOptions
  | enumOptions
  | enumValueOptions
  | serviceOptions
  | methodOptions
  | extensionRangeOptions
  | uninterpretedOption
  | optionNamePart
  | sourceInfo
  | location
deriving Repr, DecidableEq

inductive FieldShape where
  | varint
  | varints
  | double
  | text
  | octets
  | record (shape : Shape)
deriving Repr, DecidableEq

namespace Shape

def fields : Shape → List (Nat × FieldShape)
  | fileSet => [(1, .record file)]
  | file =>
    [(1, .text), (2, .text), (3, .text), (4, .record message), (5, .record enumeration),
      (6, .record service), (7, .record field), (8, .record fileOptions),
      (9, .record sourceInfo), (10, .varints), (11, .varints), (12, .text)]
  | message =>
    [(1, .text), (2, .record field), (3, .record message), (4, .record enumeration),
      (5, .record extensionRange), (6, .record field), (7, .record messageOptions),
      (8, .record oneof), (9, .record reservedRange), (10, .text)]
  | extensionRange => [(1, .varint), (2, .varint), (3, .record extensionRangeOptions)]
  | reservedRange => [(1, .varint), (2, .varint)]
  | field =>
    [(1, .text), (2, .text), (3, .varint), (4, .varint), (5, .varint), (6, .text), (7, .text),
      (8, .record fieldOptions), (9, .varint), (10, .text), (17, .varint)]
  | oneof => [(1, .text), (2, .record oneofOptions)]
  | enumeration =>
    [(1, .text), (2, .record enumValue), (3, .record enumOptions), (4, .record reservedRange),
      (5, .text)]
  | enumValue => [(1, .text), (2, .varint), (3, .record enumValueOptions)]
  | service => [(1, .text), (2, .record method), (3, .record serviceOptions)]
  | method =>
    [(1, .text), (2, .text), (3, .text), (4, .record methodOptions), (5, .varint), (6, .varint)]
  | fileOptions =>
    [(1, .text), (8, .text), (9, .varint), (10, .varint), (11, .text), (16, .varint),
      (17, .varint), (18, .varint), (20, .varint), (23, .varint), (27, .varint), (31, .varint),
      (36, .text), (37, .text), (39, .text), (40, .text), (41, .text), (42, .varint),
      (44, .text), (45, .text), (999, .record uninterpretedOption)]
  | messageOptions =>
    [(1, .varint), (2, .varint), (3, .varint), (7, .varint),
      (999, .record uninterpretedOption)]
  | fieldOptions =>
    [(1, .varint), (2, .varint), (3, .varint), (5, .varint), (6, .varint), (10, .varint),
      (999, .record uninterpretedOption)]
  | oneofOptions | extensionRangeOptions => [(999, .record uninterpretedOption)]
  | enumOptions => [(2, .varint), (3, .varint), (999, .record uninterpretedOption)]
  | enumValueOptions => [(1, .varint), (999, .record uninterpretedOption)]
  | serviceOptions => [(33, .varint), (999, .record uninterpretedOption)]
  | methodOptions => [(33, .varint), (34, .varint), (999, .record uninterpretedOption)]
  | uninterpretedOption =>
    [(2, .record optionNamePart), (3, .text), (4, .varint), (5, .varint), (6, .double),
      (7, .octets), (8, .text)]
  | optionNamePart => [(1, .text), (2, .varint)]
  | sourceInfo => [(1, .record location)]
  | location => [(1, .varints), (2, .varints), (3, .text), (4, .text), (6, .text)]

end Shape

/-- The value of a field; of an unknown field it is only known to be there. -/
inductive Value where
  | unknown
  | number (value : Nat)
  | text (value : String)
  | octets (value : Bytes)
  | record (fields : List (Nat × Value))

abbrev Record := List (Nat × Value)

namespace Record

def maxNesting : Nat := 100

def readVarint? (data : Bytes) : Option (Nat × Bytes) :=
  match Base128.splitGroups Wire.Varint.maxLength data with
  | some (groups, remaining) =>
    let value := Base128.leastFirst groups
    if value < Nat.pow 2 64 then some (value, remaining) else none
  | none => none

def readKey? (data : Bytes) : Option (Nat × WireType × Bytes) :=
  match readVarint? data with
  | some (value, remaining) =>
    match WireType.ofCode? (value % 8) with
    | some wireType =>
      if value < Nat.pow 2 32 ∧ 0 < value / 8 then some (value / 8, wireType, remaining) else none
    | none => none
  | none => none

def split? (count : Nat) (data : Bytes) : Option (Bytes × Bytes) :=
  if count ≤ data.length then some (data.take count, data.drop count) else none

def splitCounted? (data : Bytes) : Option (Bytes × Bytes) :=
  match readVarint? data with
  | some (count, remaining) => split? count remaining
  | none => none

def skipGroup? (skip : Nat → WireType → Bytes → Option Bytes) (number : Nat) (data : Bytes) :
    Option Bytes :=
  match readKey? data with
  | none => none
  | some (inner, .endGroup, remaining) => if inner = number then some remaining else none
  | some (inner, wireType, remaining) =>
    match skip inner wireType remaining with
    | none => none
    | some following =>
      if _ : following.length < data.length then skipGroup? skip number following else none
termination_by data.length

/-- Skips the value of an unknown field, with `room` levels of nesting left. -/
def skip? : (room : Nat) → Nat → WireType → Bytes → Option Bytes
  | 0 => fun _ _ _ => none
  | room + 1 => fun number wireType data =>
    match wireType with
    | .varint => (readVarint? data).map Prod.snd
    | .fixed64 => (split? 8 data).map Prod.snd
    | .lengthDelimited => (splitCounted? data).map Prod.snd
    | .startGroup => skipGroup? (skip? room) number data
    | .endGroup => none
    | .fixed32 => (split? 4 data).map Prod.snd

def packed? (data : Bytes) : Option (List Value) :=
  if data.isEmpty then
    some []
  else
    match readVarint? data with
    | none => none
    | some (value, remaining) =>
      if _ : remaining.length < data.length then
        (packed? remaining).map (Value.number value :: ·)
      else
        none
termination_by data.length

def readValues? (nested? : Shape → Bytes → Option Record) (shape : FieldShape)
    (wireType : WireType) (data : Bytes) : Option (List Value × Bytes) :=
  match shape, wireType with
  | .varint, .varint | .varints, .varint =>
    (readVarint? data).map fun (value, remaining) => ([.number value], remaining)
  | .double, .fixed64 =>
    (split? 8 data).map fun (octets, remaining) =>
      ([.number (Bytes.littleEndian octets)], remaining)
  | .varints, .lengthDelimited =>
    match splitCounted? data with
    | some (contents, remaining) => (packed? contents).map fun values => (values, remaining)
    | none => none
  | .text, .lengthDelimited =>
    match splitCounted? data with
    | some (contents, remaining) =>
      (Utf8.decode? contents).map fun text => ([.text (String.ofList text)], remaining)
    | none => none
  | .octets, .lengthDelimited =>
    (splitCounted? data).map fun (contents, remaining) => ([.octets contents], remaining)
  | .record inner, .lengthDelimited =>
    match splitCounted? data with
    | some (contents, remaining) =>
      (nested? inner contents).map fun record => ([.record record], remaining)
    | none => none
  | _, _ => none

def decodeWith? (nested? : Shape → Bytes → Option Record)
    (skip : Nat → WireType → Bytes → Option Bytes) (shape : Shape) (data : Bytes) :
    Option Record :=
  if data.isEmpty then
    some []
  else
    match readKey? data with
    | none => none
    | some (number, wireType, afterKey) =>
      let read :=
        match shape.fields.lookup number with
        | some fieldShape => readValues? nested? fieldShape wireType afterKey
        | none => (skip number wireType afterKey).map fun remaining => ([.unknown], remaining)
      match read with
      | none => none
      | some (values, remaining) =>
        if _ : remaining.length < data.length then
          (decodeWith? nested? skip shape remaining).map (values.map (number, ·) ++ ·)
        else
          none
termination_by data.length

/-- Reads a record with `room` levels of nesting left. -/
def decodeNested? : (room : Nat) → Shape → Bytes → Option Record
  | 0 => decodeWith? (fun _ _ => none) (skip? 0)
  | room + 1 => decodeWith? (decodeNested? room) (skip? (room + 1))

def decode? (shape : Shape) (data : Bytes) : Option Record := decodeNested? maxNesting shape data

def values (record : Record) (number : Nat) : List Value :=
  (record.filter (·.1 == number)).map Prod.snd

def texts (record : Record) (number : Nat) : List String :=
  (record.values number).filterMap fun
    | .text value => some value
    | _ => none

def text? (record : Record) (number : Nat) : Option String := (record.texts number).getLast?

def octets? (record : Record) (number : Nat) : Option Bytes :=
  ((record.values number).filterMap fun
    | .octets value => some value
    | _ => none).getLast?

def numbers (record : Record) (number : Nat) : List Nat :=
  (record.values number).filterMap fun
    | .number value => some value
    | _ => none

def number? (record : Record) (number : Nat) : Option Nat := (record.numbers number).getLast?

def int32? (record : Record) (number : Nat) : Option Int := (record.number? number).map (signed 32)

/-- Whether a field is set to something other than zero. -/
def flag (record : Record) (number : Nat) : Bool := (record.number? number).any (· != 0)

def records (record : Record) (number : Nat) : List Record :=
  (record.values number).filterMap fun
    | .record fields => some fields
    | _ => none

def merged (record : Record) (number : Nat) : Record := (record.records number).flatten

end Record

end ByteListing.Schema
