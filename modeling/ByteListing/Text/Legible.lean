import ByteListing.Text.Unicode.Punctuation
import ByteListing.Text.Unicode.NonPrintable
import ByteListing.Text.Unicode.GraphemeExtend
import ByteListing.Text.Utf8

/-! # Legible text

Readers and printers ask whether characters are controls, white space or punctuation, whether they
have a printed form of their own, and whether they extend the grapheme before them.

A byte string is shown as text only if it is not empty and holds no control character other than
tabs and line breaks.  One test admits ASCII only, the other all of UTF-8. -/
set_option autoImplicit false

namespace ByteListing.Unicode

def inRanges (ranges : List (Nat × Nat)) (code : Nat) : Bool :=
  ranges.any fun range => range.1 ≤ code && code ≤ range.2

def isControl (c : Char) : Bool :=
  inRanges [(0x00, 0x1F), (0x7F, 0x9F)] c.toNat

def isWhiteSpace (c : Char) : Bool :=
  inRanges [(0x09, 0x0D), (0x20, 0x20), (0x85, 0x85), (0xA0, 0xA0), (0x1680, 0x1680),
    (0x2000, 0x200A), (0x2028, 0x2029), (0x202F, 0x202F), (0x205F, 0x205F),
    (0x3000, 0x3000)] c.toNat

def isPunctuation (c : Char) : Bool := inRanges punctuationRanges c.toNat

/-- Characters that a reader can see, the space included. -/
def isPrintable (c : Char) : Bool := !inRanges nonPrintableRanges c.toNat

def extendsGrapheme (c : Char) : Bool := inRanges graphemeExtendRanges c.toNat

end ByteListing.Unicode

namespace ByteListing.Legible

def isAscii (data : Bytes) : Bool :=
  !data.isEmpty && data.all fun byte =>
    (0x20 ≤ byte && byte < 0x7F) || byte == 0x09 || byte == 0x0A || byte == 0x0D

/-- UTF-8 without control characters other than tabs and line breaks. -/
def isUtf8 (data : Bytes) : Bool :=
  match Utf8.decode? data with
  | some text =>
    !text.isEmpty && text.all fun c =>
      !Unicode.isControl c || c == '\t' || c == '\n' || c == '\r'
  | none => false

end ByteListing.Legible
