import ByteListing.Pem.Block
import ByteListing.Proofs.Text.Base64
import ByteListing.Proofs.Text.Cut

/-! # Blocks in armour

How blocks are written.  An armour is a block with everything that the block leaves open: the
line feeds or carriage returns at the ends of its lines, whether an empty line stands behind the
headers, and where the base 64 of the contents is broken.  Around armour stands text in which no
line begins like a block, and in front of armour it is complete lines. -/
set_option autoImplicit false
namespace ByteListing.Pem

open ByteListing.Bytes (LineEnd)

def utf8 (text : String) : Bytes := Utf8.encode text.toList

/-- UTF-8 in one line, without white space at its ends. -/
structure IsTidy (text : String) : Prop where
  noFeed : 0x0A ∉ utf8 text
  begins : ∀ byte ∈ (utf8 text).head?, Bytes.isBlank byte = false
  ends : ∀ byte ∈ (utf8 text).getLast?, Bytes.isBlank byte = false

structure HeaderLine where
  key : String
  value : String
  lineEnd : LineEnd
  tidyKey : IsTidy key
  tidyValue : IsTidy value
  noColon : 0x3A ∉ utf8 key

def HeaderLine.octets (header : HeaderLine) : Bytes :=
  utf8 header.key ++ 0x3A :: 0x20 :: utf8 header.value ++ header.lineEnd.octets

structure BodyLine where
  text : Bytes
  lineEnd : LineEnd

def BodyLine.octets (line : BodyLine) : Bytes := line.text ++ line.lineEnd.octets

structure Armour where
  label : String
  headers : List HeaderLine
  contents : Bytes
  beginEnd : LineEnd
  emptyLine : Option LineEnd
  lines : List BodyLine
  endEnd : LineEnd
  tidyLabel : IsTidy label
  noColon : 0x3A ∉ utf8 label
  broken : lines.flatMap BodyLine.text = Base64.encode contents

namespace Armour

def block (armour : Armour) : Block :=
  ⟨armour.label, armour.headers.map fun header => (header.key, header.value), armour.contents⟩

def body (armour : Armour) : Bytes :=
  (armour.emptyLine.toList.flatMap LineEnd.octets) ++ armour.lines.flatMap BodyLine.octets

def ending (armour : Armour) : Bytes := endMark (utf8 armour.label) ++ armour.endEnd.octets

def octets (armour : Armour) : Bytes :=
  beginMark ++ (utf8 armour.label ++ dashes ++ armour.beginEnd.octets ++
    armour.headers.flatMap HeaderLine.octets ++ armour.body ++ armour.ending)

end Armour

/-- The mark stands neither at the beginning of a text nor behind a line feed of it. -/
def Unmarked (mark text : Bytes) : Prop :=
  ∀ front back, text = front ++ (mark ++ back) → front ≠ [] ∧ front.getLast? ≠ some 0x0A

/-- Lines in front of armour, none of which begins like a block. -/
structure Gap where
  text : Bytes
  complete : text = [] ∨ text.getLast? = some 0x0A
  unmarked : Unmarked beginMark text

def written (parts : List (Gap × Armour)) (tail : Bytes) : Bytes :=
  parts.flatMap (fun part => part.1.text ++ part.2.octets) ++ tail

end ByteListing.Pem
