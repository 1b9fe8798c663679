import ByteListing.Text.Utf8

/-! # UTF-16 and UTF-32

Sixteen-bit units are read as characters: a high surrogate followed by a low one stands for a
supplementary character, any other surrogate stands for nothing.  Strict decoding wants no
such unit; lossy decoding shows each as one replacement character. -/
set_option autoImplicit false
namespace ByteListing

namespace Utf16

def isHigh (unit : UInt16) : Bool := 0xD800 ≤ unit && unit < 0xDC00

def isLow (unit : UInt16) : Bool := 0xDC00 ≤ unit && unit < 0xE000

def pair (high low : UInt16) : Char :=
  Char.ofNat (0x10000 + (high.toNat % 1024) * 1024 + low.toNat % 1024)

/-- The characters of a list of units in order, with `none` for each surrogate without its
partner. -/
def pieces : List UInt16 → List (Option Char)
  | [] => []
  | [unit] => [if isHigh unit || isLow unit then none else some (Char.ofNat unit.toNat)]
  | unit :: next :: rest =>
    if isHigh unit && isLow next then
      some (pair unit next) :: pieces rest
    else
      (if isHigh unit || isLow unit then none else some (Char.ofNat unit.toNat)) ::
        pieces (next :: rest)

def decode? (units : List UInt16) : Option (List Char) := (pieces units).mapM id

def decodeLossy (units : List UInt16) : List Char :=
  (pieces units).map (·.getD Utf8.replacement)

def encodeChar (c : Char) : List UInt16 :=
  if c.toNat < 0x10000 then
    [UInt16.ofNat c.toNat]
  else
    [UInt16.ofNat (0xD800 + (c.toNat - 0x10000) / 1024),
      UInt16.ofNat (0xDC00 + (c.toNat - 0x10000) % 1024)]

def encode (text : List Char) : List UInt16 := text.flatMap encodeChar

def decodeBytes? (data : Bytes) : Option (List Char) :=
  if data.length % 2 = 0 then
    decode? ((data.chunks 2).map fun unit => UInt16.ofNat unit.bigEndian)
  else
    none

end Utf16

namespace Utf32

/-- The character with a given number, unless it is a surrogate or past the last one. -/
def char? (value : Nat) : Option Char :=
  if value.isValidChar then some (Char.ofNat value) else none

def decodeBytes? (data : Bytes) : Option (List Char) :=
  if data.length % 4 = 0 then
    ((data.chunks 4).map Bytes.bigEndian).mapM char?
  else
    none

end Utf32

end ByteListing
