import ByteListing.Text.Hex
import ByteListing.Text.Legible

/-! # Quoted literals

A literal stands between double quotes on one line.  Backslashes, quotes and the common line
controls have escapes of two characters; every other octet that cannot stand for itself is
written as a backslash, an `x` and two digits.  Well-formed UTF-8 is quoted as the text that it
encodes, anything else octet by octet.

Messages quote in two more ways.  Octal literals hold octets, and write those that are no printable
ASCII as a backslash and three octal digits.  Character literals hold one character between single
quotes, by its number if it cannot be seen on its own. -/
set_option autoImplicit false

namespace ByteListing.Quoted

def escapeOctet (byte : UInt8) : List Char := '\\' :: 'x' :: Hex.octet byte

def escapeChar (c : Char) : List Char :=
  if c = '\\' then ['\\', '\\']
  else if c = '\"' then ['\\', '\"']
  else if c = '\n' then ['\\', 'n']
  else if c = '\r' then ['\\', 'r']
  else if c = '\t' then ['\\', 't']
  else if Unicode.isControl c then (String.utf8EncodeChar c).flatMap escapeOctet
  else [c]

/-- An octet of a byte string that is no text, as it stands inside a literal. -/
def escapeByte (byte : UInt8) : List Char :=
  if byte = 0x5C then ['\\', '\\']
  else if byte = 0x22 then ['\\', '\"']
  else if byte = 0x0A then ['\\', 'n']
  else if 0x20 ≤ byte ∧ byte ≤ 0x7E then [Char.ofNat byte.toNat]
  else escapeOctet byte

def escapeText (text : List Char) : List Char := text.flatMap escapeChar

def escapeBytes (data : Bytes) : List Char :=
  match Utf8.decode? data with
  | some text => escapeText text
  | none => data.flatMap escapeByte

def enclose (inside : List Char) : String := String.ofList ('\"' :: (inside ++ ['\"']))

def ofText (text : List Char) : String := enclose (escapeText text)

def ofString (text : String) : String := ofText text.toList

def ofBytes (data : Bytes) : String := enclose (escapeBytes data)

end ByteListing.Quoted

namespace ByteListing.OctalLiteral

def digits (byte : UInt8) : List Char :=
  [Hex.digit (byte.toNat / 64), Hex.digit (byte.toNat / 8 % 8), Hex.digit (byte.toNat % 8)]

def escape (byte : UInt8) : List Char :=
  if byte = 0x09 then ['\\', 't']
  else if byte = 0x0A then ['\\', 'n']
  else if byte = 0x0D then ['\\', 'r']
  else if byte = 0x22 ∨ byte = 0x27 ∨ byte = 0x5C then ['\\', Char.ofNat byte.toNat]
  else if 0x20 ≤ byte ∧ byte ≤ 0x7E then [Char.ofNat byte.toNat]
  else '\\' :: digits byte

def ofBytes (data : Bytes) : String := Quoted.enclose (data.flatMap escape)

end ByteListing.OctalLiteral

namespace ByteListing.CharLiteral

def body (c : Char) : String :=
  if c = Char.ofNat 0 then "\\0"
  else if c = '\t' then "\\t"
  else if c = '\n' then "\\n"
  else if c = '\r' then "\\r"
  else if c = '\'' then "\\'"
  else if c = '\\' then "\\\\"
  else if Unicode.extendsGrapheme c || !Unicode.isPrintable c then
    "\\u\x7b" ++ Hex.natural c.toNat ++ "\x7d"
  else String.singleton c

def quote (c : Char) : String := "'" ++ body c ++ "'"

end ByteListing.CharLiteral
