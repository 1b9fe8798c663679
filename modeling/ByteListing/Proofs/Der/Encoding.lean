import ByteListing.Der.Element
import ByteListing.Proofs.Bytes.Base128

/-! # The encodings of elements

Which octets encode an element, told from the element and without a reader.  A tag is written
in one octet or with its number in base 128, a length in one octet or with the number of
octets it takes, and a body of open length holds encodings of its own up to two zero octets.
The depth counts the open lengths around an encoding; there are at most sixty-four. -/
set_option autoImplicit false
namespace ByteListing.Der

def TagClass.bits : TagClass → Nat
  | universal => 0
  | application => 1
  | contextSpecific => 2
  | privateUse => 3

namespace Tag

/-- The first octet of a tag, with what its five low bits hold. -/
def lead (tag : Tag) (low : Nat) : UInt8 :=
  UInt8.ofNat (64 * tag.tagClass.bits + 32 * tag.constructed.toNat + low)

inductive Octets (tag : Tag) : Bytes → Prop
  | low : tag.number ≤ 30 → Octets tag [tag.lead tag.number]
  /-- A number in base 128 behind the first octet, possibly with zeros in front. -/
  | high {groups : Bytes} : Base128.Terminated groups → Base128.mostFirst groups = tag.number →
      tag.number < Nat.pow 2 32 → Octets tag (tag.lead 31 :: groups)

end Tag

namespace Length

inductive Octets (size : Nat) : Bytes → Prop
  | short : size < 128 → Octets size [UInt8.ofNat size]
  /-- In one to eight octets behind their number, possibly with zeros in front. -/
  | long {digits : Bytes} : 1 ≤ digits.length → digits.length ≤ 8 →
      Bytes.bigEndian digits = size → Octets size (UInt8.ofNat (128 + digits.length) :: digits)

end Length

mutual

/-- The octets that encode an element at a depth, by its tag, by whether its length is left open,
and by its body. -/
inductive Encoding : (depth : Nat) → (tag : Tag) → (indefinite : Bool) → (body : Bytes) →
    Bytes → Prop
  | definite {depth : Nat} {tag : Tag} {body tagOctets lengthOctets : Bytes} :
      tag.Octets tagOctets → Length.Octets body.length lengthOctets →
      Encoding depth tag false body (tagOctets ++ lengthOctets ++ body)
  /-- No length, but two zero octets behind the body. -/
  | indefinite {depth : Nat} {tag : Tag} {body tagOctets : Bytes} :
      tag.Octets tagOctets → tag.constructed = true → depth < 64 → Contents (depth + 1) body →
      Encoding depth tag true body (tagOctets ++ 0x80 :: body ++ [0x00, 0x00])

/-- Encodings at a depth one after the other, none of which begins with two zero octets. -/
inductive Contents : (depth : Nat) → Bytes → Prop
  | nil {depth : Nat} : Contents depth []
  | cons {depth : Nat} {tag : Tag} {indefinite : Bool} {body octets rest : Bytes} :
      Encoding depth tag indefinite body octets → ¬ [0x00, 0x00] <+: octets →
      Contents depth rest → Contents depth (octets ++ rest)

end

end ByteListing.Der
