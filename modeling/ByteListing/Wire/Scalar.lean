import ByteListing.Decimal.FloatText
import ByteListing.Schema.Pool
import ByteListing.Wire.Varint

/-! # The text of scalar values

A raw value is shown in the interpretation that its declared kind gives it, and as an unsigned
number where none is declared or the kind does not go with the wire type.  Fixed-width integers
and zig-zag values carry a suffix that names their form.

The payload of a repeated scalar field may hold many values; it is shown as their texts with
spaces between them. -/
set_option autoImplicit false
namespace ByteListing.Wire.Scalar

open ByteListing.Schema (Kind)

def varintText (kind : Option Kind) (value : Nat) : String :=
  match kind with
  | some .int32 | some (.enumeration _) => toString (signed 32 value)
  | some .int64 => toString (signed 64 value)
  | some .uint32 => toString (value % Nat.pow 2 32)
  | some .sint32 | some .sint64 => toString (Varint.unfold value) ++ "z"
  | some .bool => if value ≤ 1 then (if value = 1 then "true" else "false") else toString value
  | _ => toString value

def fixed64Text (kind : Option Kind) (value : Nat) : String :=
  match kind with
  | some .double => Decimal.floatText .double value
  | some .sfixed64 => toString (signed 64 value) ++ "i64"
  | _ => toString value ++ "i64"

def fixed32Text (kind : Option Kind) (value : Nat) : String :=
  match kind with
  | some .float => Decimal.floatText .single value
  | some .sfixed32 => toString (signed 32 value) ++ "i32"
  | _ => toString value ++ "i32"

/-- The values of `size` octets each that make up a byte string. -/
def fixedValues? (size : Nat) (data : Bytes) : Option (List Nat) :=
  if data.length % size = 0 then some ((data.chunks size).map Bytes.littleEndian) else none

def packedTexts? (kind : Kind) (payload : Bytes) : Option (List String) :=
  match kind with
  | .int32 | .int64 | .uint32 | .uint64 | .sint32 | .sint64 | .bool | .enumeration _ =>
    (Varint.sequence? payload).map (·.map (varintText (some kind)))
  | .fixed32 | .sfixed32 | .float =>
    (fixedValues? 4 payload).map (·.map (fixed32Text (some kind)))
  | .fixed64 | .sfixed64 | .double =>
    (fixedValues? 8 payload).map (·.map (fixed64Text (some kind)))
  | .string | .bytes | .message _ => none

def packedText? (kind : Kind) (payload : Bytes) : Option String :=
  (packedTexts? kind payload).map (" ".intercalate ·)

end ByteListing.Wire.Scalar
