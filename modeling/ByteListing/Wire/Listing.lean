import ByteListing.Listing
import ByteListing.Schema.Lookup
import ByteListing.Text.Quoted
import ByteListing.Wire.Field
import ByteListing.Wire.Scalar

/-! # The listing of fields

Fields are listed one per line with number, wire type and value; the value of a
length-delimited field is its length and, in braces, its payload.  A payload is shown as the
fields of a message if it is declared to be one or looks like one, within the depth limit.  A
group indents what follows by one level until its end.

With a message type, declared fields carry their name in a comment, and their values are shown
as declared.  The type is given by its name in a serialized schema.  Listing never fails: bytes that
hold no field are shown in digits. -/
set_option autoImplicit false
namespace ByteListing.Wire

open ByteListing.Schema (EnumType FieldType Kind MessageType Pool)

structure Layout where
  indent : String := "  "
  maxDepth : Nat := 64

inductive Entry where
  | scalar (level number : Nat) (wireType : WireType) (text comment : String)
  | payload (level number length : Nat) (text comment : String)
  | block (level number length : Nat) (comment : String) (entries : List Entry)
  | groupStart (level number : Nat) (comment : String)
  | groupEnd (level number : Nat)
  | remainder (level : Nat) (data : Bytes)

def fieldComment : Option FieldType → String
  | some field => "  # " ++ field.name
  | none => ""

def messageOf? (pool : Pool) (field : Option FieldType) : Option MessageType :=
  match field.map FieldType.kind with
  | some (.message fullName) => pool.message? fullName
  | _ => none

def valueComment (pool : Pool) (field : Option FieldType) (value : Nat) : String :=
  match field.map FieldType.kind with
  | some (.enumeration fullName) =>
    match (pool.enum? fullName).bind fun enumeration =>
        enumeration.nameOf? (signed 32 value) with
    | some name => " = " ++ name
    | none => ""
  | _ => ""

inductive Form where
  | inline (text : String)
  | nested (message : Option MessageType)

/-- How a payload that is not empty is shown where its declaration does not decide. -/
def undeclaredForm (mayNest : Bool) (payload : Bytes) : Form :=
  if Legible.isUtf8 payload then .inline (Quoted.ofBytes payload)
  else if mayNest ∧ isMessage payload then .nested none
  else .inline (Hex.literal payload)

def declaredForm (pool : Pool) (mayNest : Bool) (field : FieldType) (payload : Bytes) : Form :=
  match field.kind with
  | .message fullName =>
    if mayNest ∧ isMessage payload then .nested (pool.message? fullName)
    else undeclaredForm mayNest payload
  | .string => .inline (Quoted.ofBytes payload)
  | kind =>
    if field.repeated then
      match Scalar.packedText? kind payload with
      | some text => .inline text
      | none => undeclaredForm mayNest payload
    else
      undeclaredForm mayNest payload

def payloadForm (pool : Pool) (mayNest : Bool) (field : Option FieldType) (payload : Bytes) :
    Form :=
  if payload.isEmpty then
    .inline ""
  else
    match field with
    | some field => declaredForm pool mayNest field payload
    | none => undeclaredForm mayNest payload

/-- The groups that are open, innermost first, each with the message type of its fields. -/
abbrev Scopes := List (Nat × Option MessageType)

def Scopes.message (scopes : Scopes) (whole : Option MessageType) : Option MessageType :=
  match scopes with
  | (_, message) :: _ => message
  | [] => whole

def Scopes.close (scopes : Scopes) (number : Nat) : Scopes :=
  match scopes with
  | (innermost, message) :: outer =>
    if innermost = number then outer else (innermost, message) :: outer
  | [] => []

/-- The entry of a field that is no group.  `inner` lists the payload of a field that opens a
block. -/
def entryOf (pool : Pool) (maxDepth level : Nat)
    (inner : (level : Nat) → Option MessageType → Bytes → List Entry)
    (declared : Option FieldType) (field : Field) : Entry :=
  let comment := fieldComment declared
  let kind := declared.map FieldType.kind
  let scalar (text comment : String) : Entry :=
    .scalar level field.number field.value.wireType text comment
  match field.value with
  | .varint value =>
    scalar (Scalar.varintText kind value) (comment ++ valueComment pool declared value)
  | .fixed64 value => scalar (Scalar.fixed64Text kind value) comment
  | .fixed32 value => scalar (Scalar.fixed32Text kind value) comment
  | .lengthDelimited payload =>
    match payloadForm pool (level < maxDepth) declared payload with
    | .inline text => .payload level field.number payload.length text comment
    | .nested message =>
      .block level field.number payload.length comment (inner level message payload)
  | .startGroup => .groupStart level field.number comment
  | .endGroup => .groupEnd level field.number

def entriesOf (pool : Pool) (maxDepth base : Nat)
    (inner : (level : Nat) → Option MessageType → Bytes → List Entry)
    (whole : Option MessageType) : Scopes → List Field → List Entry
  | _, [] => []
  | scopes, field :: rest =>
    let declared := (scopes.message whole).bind (·.field? field.number)
    let following : Scopes :=
      match field.value with
      | .startGroup => (field.number, messageOf? pool declared) :: scopes
      | .endGroup => scopes.close field.number
      | _ => scopes
    let level :=
      match field.value with
      | .endGroup => base + following.length
      | _ => base + scopes.length
    entryOf pool maxDepth level inner declared field ::
      entriesOf pool maxDepth base inner whole following rest

def openAfter : (scopes : List Nat) → List Field → List Nat
  | scopes, [] => scopes
  | scopes, field :: rest =>
    match field.value with
    | .startGroup => openAfter (field.number :: scopes) rest
    | .endGroup =>
      match scopes with
      | innermost :: outer =>
        openAfter (if innermost = field.number then outer else innermost :: outer) rest
      | [] => openAfter [] rest
    | _ => openAfter scopes rest

def entries (pool : Pool) (maxDepth level : Nat) (message : Option MessageType) (data : Bytes) :
    List Entry :=
  let (parsed, remaining) := Field.parseAll data
  let fields := parsed.map Prod.fst
  let inner (depth : Nat) (message : Option MessageType) (payload : Bytes) : List Entry :=
    if _ : level ≤ depth ∧ depth < maxDepth then
      entries pool maxDepth (depth + 1) message payload
    else
      []
  entriesOf pool maxDepth level inner message [] fields ++
    (if remaining.isEmpty then []
      else [Entry.remainder (level + (openAfter [] fields).length) remaining])
termination_by maxDepth - level
decreasing_by omega

namespace Entry

def head (number : Nat) (wireType : WireType) : String :=
  toString number ++ ":" ++ wireType.name

def lengthHead (number length : Nat) : String :=
  head number .lengthDelimited ++ " " ++ toString length

mutual

def lines : Entry → List Line
  | scalar level number wireType text comment =>
    [⟨level, head number wireType ++ " " ++ text ++ comment⟩]
  | payload level number length text comment =>
    [⟨level, lengthHead number length ++ " \x7b" ++ text ++ "\x7d" ++ comment⟩]
  | block level number length comment inner =>
    ⟨level, lengthHead number length ++ " \x7b" ++ comment⟩ ::
      (linesOf inner ++ [⟨level, "\x7d"⟩])
  | groupStart level number comment => [⟨level, head number .startGroup ++ comment⟩]
  | groupEnd level number => [⟨level, head number .endGroup⟩]
  | remainder level data => [⟨level, Hex.literal data⟩]

def linesOf : List Entry → List Line
  | [] => []
  | entry :: rest => lines entry ++ linesOf rest

end

end Entry

def listing (layout : Layout) (pool : Pool) (message : Option MessageType) (data : Bytes) :
    List Line :=
  Entry.linesOf (entries pool layout.maxDepth 0 message data)

def render (layout : Layout) (pool : Pool) (message : Option MessageType) (data : Bytes) :
    String :=
  Listing.print layout.indent (listing layout pool message data)

structure TypeReference where
  schema : Bytes
  name : String
deriving Repr, DecidableEq

def renderAs (layout : Layout) (type : Option TypeReference) (data : Bytes) :
    Except Fault String :=
  match type with
  | none => .ok (render layout {} none data)
  | some reference =>
    (Schema.resolve reference.schema reference.name).map fun (pool, message) =>
      render layout pool (some message) data

end ByteListing.Wire
