import ByteListing.Fault
import ByteListing.Text.Quoted
import ByteListing.Text.Utf8

/-! # Hexadecimal dumps

A dump is hexadecimal text with white space and punctuation anywhere among the digits, as in
`30:03:02` or `30 03 02`.  Symbols such as `+` and `=` are no punctuation. -/
set_option autoImplicit false
namespace ByteListing.HexDump

def isSeparator (c : Char) : Bool := Unicode.isWhiteSpace c || Unicode.isPunctuation c

def strip (text : List Char) : List Char := text.filter fun c => !isSeparator c

/-- Reads a dump whose text is in UTF-8; ill-formed pieces of it are no digits. -/
def decode (input : Bytes) : Except Hex.Flaw Bytes := Hex.decode (strip (Utf8.decodeLossy input))

def describe : Hex.Flaw → String
  | .invalidCharacter character position =>
    "invalid character " ++ CharLiteral.quote character ++ " at position " ++ toString position
  | .oddLength => "odd length hex string"

def orFault {Result : Type} : Except Hex.Flaw Result → Except Fault Result
  | .ok result => .ok result
  | .error flaw => .error (.invalidHex (describe flaw))

end ByteListing.HexDump
