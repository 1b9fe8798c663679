import ByteListing.Decimal.FloatText
import ByteListing.Schema.DefaultValue
import ByteListing.Schema.Options
import ByteListing.Text.Quoted

/-! # The values of options

The value of an option by name suits a field if it comes in a form that the field takes: words
for truth values and the values of enumerations, byte strings for text and octets, numbers
within their range for numbers, and words for infinity and not-a-number.  No form suits a
message. -/
set_option autoImplicit false
namespace ByteListing.Schema

namespace NamedOption

def integer? (option : NamedOption) : Option Int :=
  (option.positive.map Int.ofNat).or option.negative

def isWithin (option : NamedOption) (low high : Int) : Bool :=
  option.integer?.any fun value => low ≤ value && value < high

def isSigned (option : NamedOption) (width : Nat) : Bool :=
  option.isWithin (-(Nat.pow 2 (width - 1) : Nat)) (Nat.pow 2 (width - 1) : Nat)

def isUnsigned (option : NamedOption) (width : Nat) : Bool :=
  option.isWithin 0 (Nat.pow 2 width : Nat)

def suits (types : Pool) (option : NamedOption) : Kind → Bool
  | .double | .float =>
    option.float.isSome || option.integer?.isSome ||
      option.word.any fun word => word == "inf" || word == "nan"
  | .int64 | .sfixed64 | .sint64 => option.isSigned 64
  | .uint64 | .fixed64 => option.isUnsigned 64
  | .int32 | .sfixed32 | .sint32 => option.isSigned 32
  | .uint32 | .fixed32 => option.isUnsigned 32
  | .bool => option.word.any fun word => word == "true" || word == "false"
  | .string => option.octets.any fun octets => (Utf8.decode? octets).isSome
  | .bytes => option.octets.isSome
  | .enumeration fullName =>
    (types.enum? fullName).any fun enumeration =>
      option.word.any fun word => enumeration.values.any fun value => value.1 == word
  | .message _ => false

def valueText (option : NamedOption) : String :=
  (option.word
    |>.or (option.positive.map toString)
    |>.or (option.negative.map toString)
    |>.or (option.float.map (Decimal.plainText .double))
    |>.or (option.octets.map OctalLiteral.ofBytes)
    |>.or option.aggregate).getD ""

end NamedOption

end ByteListing.Schema
