import ByteListing.Text.Utf16

/-! # Modified UTF-8

Sixteen-bit units are written in one to three octets each, so that both halves of a surrogate
pair are written separately; zero is written in two.  An octet at which no well-formed sequence
begins stands for one replacement character. -/
set_option autoImplicit false
namespace ByteListing.Dex.Mutf8

def isContinuation (byte : UInt8) : Bool := 0x80 ≤ byte && byte < 0xC0

/-- The value of the sequence that begins with `byte`, and how many octets of `rest` it takes. -/
def sequence? (byte : UInt8) (rest : Bytes) : Option (Nat × Nat) :=
  if byte < 0x80 then
    some (byte.toNat, 0)
  else if 0xC0 ≤ byte ∧ byte < 0xE0 then
    match rest with
    | second :: _ =>
      if isContinuation second then some (byte.toNat % 32 * 64 + second.toNat % 64, 1) else none
    | [] => none
  else if 0xE0 ≤ byte ∧ byte < 0xF0 then
    match rest with
    | second :: third :: _ =>
      if isContinuation second ∧ isContinuation third then
        some (byte.toNat % 16 * 4096 + second.toNat % 64 * 64 + third.toNat % 64, 2)
      else
        none
    | _ => none
  else
    none

def replacement : UInt16 := 0xFFFD

def units : Bytes → List UInt16
  | [] => []
  | byte :: rest =>
    match sequence? byte rest with
    | none => replacement :: units rest
    | some (value, following) => UInt16.ofNat value :: units (rest.drop following)
termination_by data => data.length
decreasing_by
  · simp
  · simp only [List.length_drop, List.length_cons]
    omega

/-- The text of a byte string.  Lone surrogates are replaced as well. -/
def decode (data : Bytes) : List Char := Utf16.decodeLossy (units data)

def encodeUnit (unit : UInt16) : Bytes :=
  let value := unit.toNat
  if 0 < value ∧ value < 0x80 then
    [UInt8.ofNat value]
  else if value < 0x800 then
    [UInt8.ofNat (0xC0 + value / 64), UInt8.ofNat (0x80 + value % 64)]
  else
    [UInt8.ofNat (0xE0 + value / 4096), UInt8.ofNat (0x80 + value / 64 % 64),
      UInt8.ofNat (0x80 + value % 64)]

def encode (text : List Char) : Bytes := (Utf16.encode text).flatMap encodeUnit

end ByteListing.Dex.Mutf8
