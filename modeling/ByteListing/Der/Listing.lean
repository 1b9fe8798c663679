import ByteListing.Der.Element
import ByteListing.Der.ObjectIdentifier
import ByteListing.Listing
import ByteListing.Text.Legible
import ByteListing.Text.Quoted
import ByteListing.Text.Utf16

/-! # The listing of elements

Elements are listed one per line, and those whose body is shown as elements again open a block
with one more level.  Constructed bodies always nest; octet strings, bit strings without unused
bits and primitive bodies under other classes nest if they look like embedded elements.
Other bodies are shown in the most specific form there is for their type.  No line is deeper
than the depth limit: at the limit a body that would nest is shown in digits.

Listing never fails: input that stops parsing is shown in digits on a line of its own. -/
set_option autoImplicit false
namespace ByteListing.Der

structure Layout where
  indent : String := "  "
  maxDepth : Nat := 64
  identifierNames : Bool := true

inductive Body where
  | empty
  | inline (text : String) (comment : Option String)
  /-- A block: a first line of its own, and then the elements of a byte string. -/
  | nested (lead : Option String) (inner : Bytes)

namespace Body

def literal (data : Bytes) : String :=
  if Legible.isAscii data then Quoted.ofBytes data else Hex.literal data

/-- A body as the two's complement integer that it is, most significant octet first. -/
def integer (data : Bytes) : Int := signed (8 * data.length) data.bigEndian

def textOr (letter : String) (data : Bytes) : Option (List Char) → Body
  | some text => inline (letter ++ Quoted.ofText text) none
  | none => inline (Hex.literal data) none

/-- The body of a bit string that is not empty: the number of unused bits, then the bits. -/
def bitString (mayNest : Bool) (unused : UInt8) (bits : Bytes) : Body :=
  if unused = 0 ∧ mayNest ∧ Element.isSequence bits then
    nested (some (Hex.literal [unused])) bits
  else if bits.isEmpty then
    inline (Hex.literal [unused]) none
  else
    inline (Hex.literal [unused] ++ " " ++ Hex.literal bits) none

def identifier (relative named : Bool) (data : Bytes) : Body :=
  match ObjectIdentifier.decode? relative data with
  | some dotted => inline dotted (if named then ObjectIdentifier.name? dotted else none)
  | none => inline (Hex.literal data) none

def ofUniversal (layout : Layout) (mayNest : Bool) (number : Nat) (data : Bytes) : Body :=
  match number, data with
  | 1, [0x00] => inline "FALSE" none
  | 1, [0xFF] => inline "TRUE" none
  | 3, unused :: bits => bitString mayNest unused bits
  | 5, _ => inline (Hex.literal data) none
  | 6, _ => identifier false layout.identifierNames data
  | 13, _ => identifier true false data
  | 28, _ => textOr "U" data (Utf32.decodeBytes? data)
  | 30, _ => textOr "u" data (Utf16.decodeBytes? data)
  | _, _ =>
    if (number = 2 ∨ number = 10) ∧ data.length ≤ 8 then
      inline (toString (integer data)) none
    else if number = 4 ∧ mayNest ∧ Element.isSequence data then
      nested none data
    else if number = 7 ∨ number = 12 ∨ (18 ≤ number ∧ number ≤ 27) then
      inline (Quoted.ofBytes data) none
    else
      inline (literal data) none

def ofPrimitive (layout : Layout) (mayNest : Bool) (tag : Tag) (data : Bytes) : Body :=
  if data.isEmpty then
    empty
  else if tag.tagClass = .universal then
    ofUniversal layout mayNest tag.number data
  else if mayNest ∧ Element.isSequence data then
    nested none data
  else
    inline (literal data) none

def ofConstructed (mayNest : Bool) (data : Bytes) : Body :=
  if data.isEmpty then empty
  else if mayNest then nested none data
  else inline (Hex.literal data) none

def ofElement (layout : Layout) (mayNest : Bool) (element : Element) : Body :=
  if element.tag.constructed then
    ofConstructed mayNest element.body
  else
    ofPrimitive layout mayNest element.tag element.body

end Body

inductive Entry where
  | empty (head : String)
  | inline (head body : String) (comment : Option String)
  | block (head : String) (lead : Option String) (entries : List Entry)
  | remainder (data : Bytes)

def Element.head (element : Element) : String :=
  element.tag.displayName ++ (if element.indefinite then " indefinite" else "")

/-- The entry of an element.  `inner?` lists the body of an element that opens a block, unless
the depth limit is reached and none may. -/
def entryWith (layout : Layout) (inner? : Option (Bytes → List Entry)) (element : Element) :
    Entry :=
  match Body.ofElement layout inner?.isSome element with
  | .empty => .empty element.head
  | .inline text comment => .inline element.head text comment
  | .nested lead data => .block element.head lead ((inner?.map (· data)).getD [])

def entriesWith (layout : Layout) (inner? : Option (Bytes → List Entry)) (data : Bytes) :
    List Entry :=
  let (elements, remaining) := Element.parseAll data
  elements.map (entryWith layout inner?) ++
    (if remaining.isEmpty then [] else [Entry.remainder remaining])

/-- The entries of a byte string with `room` more levels before the depth limit. -/
def entries (layout : Layout) : (room : Nat) → Bytes → List Entry
  | 0 => entriesWith layout none
  | room + 1 => entriesWith layout (some (entries layout room))

namespace Entry

def commentPart : Option String → String
  | some comment => "  # " ++ comment
  | none => ""

mutual

def lines (level : Nat) : Entry → List Line
  | empty head => [⟨level, head ++ " \x7b\x7d"⟩]
  | inline head body comment =>
    [⟨level, head ++ " \x7b " ++ body ++ " \x7d" ++ commentPart comment⟩]
  | block head lead inner =>
    ⟨level, head ++ " \x7b"⟩ ::
      ((lead.toList.map fun text => ⟨level + 1, text⟩) ++ linesOf (level + 1) inner ++
        [⟨level, "\x7d"⟩])
  | remainder data => [⟨level, Hex.literal data⟩]

def linesOf (level : Nat) : List Entry → List Line
  | [] => []
  | entry :: rest => lines level entry ++ linesOf level rest

end

end Entry

def listing (layout : Layout) (data : Bytes) : List Line :=
  Entry.linesOf 0 (entries layout layout.maxDepth data)

def render (layout : Layout) (data : Bytes) : String :=
  Listing.print layout.indent (listing layout data)

end ByteListing.Der
