import ByteListing.Schema.Descriptor
import ByteListing.Text.Hex

/-! # Default values

A default value is written as a text in the notation of its type: integers in decimal with an
optional sign and within the range of the type, floating-point numbers with digits, point and
exponent or as infinity or not-a-number in any case, `true` or `false`, byte strings with the
escapes of C, and anything at all for strings. -/
set_option autoImplicit false
namespace ByteListing.Schema.DefaultValue

def digits? (text : List Char) : Option Nat :=
  if text.isEmpty ∨ !text.all Char.isDigit then
    none
  else
    some (text.foldl (fun value c => value * 10 + (c.toNat - 48)) 0)

def isUnsigned (width : Nat) (text : List Char) : Bool :=
  let magnitude := match text with
    | '+' :: rest => digits? rest
    | _ => digits? text
  match magnitude with
  | some value => value < Nat.pow 2 width
  | none => false

def isSigned (width : Nat) (text : List Char) : Bool :=
  match text with
  | '-' :: rest =>
    match digits? rest with
    | some value => value ≤ Nat.pow 2 (width - 1)
    | none => false
  | _ => isUnsigned (width - 1) text

def unsigned : List Char → List Char
  | '+' :: rest => rest
  | '-' :: rest => rest
  | text => text

def isExponentPart : List Char → Bool
  | [] => true
  | c :: rest => (c == 'e' || c == 'E') && (digits? (unsigned rest)).isSome

/-- A floating-point number without its sign: digits with at most one point among or around
them, and perhaps an exponent. -/
def isDecimal (text : List Char) : Bool :=
  let whole := text.takeWhile Char.isDigit
  match text.dropWhile Char.isDigit with
  | '.' :: rest =>
    let places := rest.takeWhile Char.isDigit
    !(whole.isEmpty && places.isEmpty) && isExponentPart (rest.dropWhile Char.isDigit)
  | rest => !whole.isEmpty && isExponentPart rest

def isFloat (text : List Char) : Bool :=
  let magnitude := unsigned text
  let lowered := magnitude.map Char.toLower
  lowered == "inf".toList || lowered == "infinity".toList || lowered == "nan".toList ||
    isDecimal magnitude

def isOctal (c : Char) : Bool := '0' ≤ c && c ≤ '7'

/-- The characters that stand behind a backslash for one octet. -/
def simpleEscapes : List Char := ['a', 'b', 'f', 'n', 'r', 't', 'v', '\\', '?', '\'', '\"']

def isHexPair (high low : Char) : Bool :=
  ((Hex.value? high).isSome || high == '+') && (Hex.value? low).isSome

def isEscaped : List Char → Bool
  | [] => true
  | '\\' :: c :: rest =>
    if simpleEscapes.contains c then
      isEscaped rest
    else if isOctal c then
      match rest with
      | second :: third :: remaining =>
        if isOctal second then
          if isOctal third then isEscaped remaining else isEscaped (third :: remaining)
        else
          isEscaped (second :: third :: remaining)
      | [second] => second != '\\'
      | [] => true
    else if c = 'x' ∨ c = 'X' then
      match rest with
      | high :: low :: remaining => isHexPair high low && isEscaped remaining
      | _ => false
    else
      false
  | c :: rest => c != '\\' && isEscaped rest

def isScalar (kind : Kind) (text : List Char) : Bool :=
  match kind with
  | .double | .float => isFloat text
  | .int64 | .sfixed64 | .sint64 => isSigned 64 text
  | .uint64 | .fixed64 => isUnsigned 64 text
  | .int32 | .sfixed32 | .sint32 => isSigned 32 text
  | .fixed32 | .uint32 => isUnsigned 32 text
  | .bool => text == "true".toList || text == "false".toList
  | .string => true
  | .bytes => isEscaped text
  | .message _ | .enumeration _ => false

def kindName : Kind → String
  | .double => "double"
  | .float => "float"
  | .int64 => "int64"
  | .uint64 => "uint64"
  | .int32 => "int32"
  | .fixed64 => "fixed64"
  | .fixed32 => "fixed32"
  | .bool => "bool"
  | .string => "string"
  | .message _ => "message type"
  | .bytes => "bytes"
  | .uint32 => "uint32"
  | .enumeration fullName => fullName
  | .sfixed32 => "sfixed32"
  | .sfixed64 => "sfixed64"
  | .sint32 => "sint32"
  | .sint64 => "sint64"

end ByteListing.Schema.DefaultValue
