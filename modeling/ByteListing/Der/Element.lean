import ByteListing.Der.Tag

/-! # Elements

An element is a tag, a length and a body.  The length is definite, or it is left open and two
zero octets end the body, which then holds whole elements.  Lengths need not be written in
their shortest form; elements of open length nest at most sixty-four deep.

`Element.parse?` reads one element, `Element.parseAll` reads elements until one does not
parse, and every element is at least two octets long and no longer than its input. -/
set_option autoImplicit false
namespace ByteListing.Der

inductive Length where
  | definite (size : Nat)
  | indefinite
deriving Repr, DecidableEq

namespace Length

/-- Reads length octets: up to 127 in one octet, otherwise the number of octets, at most
eight, that the length is written in. -/
def parse? : Bytes → Option (Length × Bytes)
  | [] => none
  | first :: rest =>
    if first < 0x80 then some (definite first.toNat, rest)
    else if first = 0x80 then some (indefinite, rest)
    else
      let count := first.toNat - 128
      if count ≤ 8 ∧ count ≤ rest.length then
        some (definite (Bytes.bigEndian (rest.take count)), rest.drop count)
      else
        none

end Length

/-- An element: its tag, whether its length was left open, its body without the terminator,
and the number of octets it takes with header and terminator. -/
structure Element where
  tag : Tag
  indefinite : Bool
  body : Bytes
  encodedLength : Nat
deriving Repr, DecidableEq

namespace Element

def maxOpenNesting : Nat := 64

def atTerminator : Bytes → Bool
  | 0 :: 0 :: _ => true
  | _ => false

def openBodyLength? (parse : Bytes → Option Element) (data : Bytes) : Option Nat :=
  if atTerminator data then
    some 0
  else
    match parse data with
    | none => none
    | some child =>
      if _ : 0 < child.encodedLength ∧ child.encodedLength ≤ data.length then
        (openBodyLength? parse (data.drop child.encodedLength)).map (child.encodedLength + ·)
      else
        none
termination_by data.length
decreasing_by exact Bytes.length_drop_lt ‹_›

def parseWith? (openLength? : Bytes → Option Nat) (data : Bytes) : Option Element :=
  match Tag.parse? data with
  | none => none
  | some (tag, afterTag) =>
    match Length.parse? afterTag with
    | none => none
    | some (.definite size, contents) =>
      if size ≤ contents.length then
        some ⟨tag, false, contents.take size, data.length - contents.length + size⟩
      else
        none
    | some (.indefinite, contents) =>
      if tag.constructed then
        (openLength? contents).map fun size =>
          ⟨tag, true, contents.take size, data.length - contents.length + size + 2⟩
      else
        none

/-- Reads the element at the start of a byte string, in which elements of open length may
nest `nesting` deep. -/
def parseNested? : (nesting : Nat) → Bytes → Option Element
  | 0 => parseWith? fun _ => none
  | nesting + 1 => parseWith? (openBodyLength? (parseNested? nesting))

def parse? (data : Bytes) : Option Element := parseNested? maxOpenNesting data

/-- Reads elements from the start of a byte string on: those that parse, and the input from
the first position where none does. -/
def parseAll (data : Bytes) : List Element × Bytes :=
  if data.isEmpty then
    ([], [])
  else
    match parse? data with
    | none => ([], data)
    | some element =>
      if _ : 0 < element.encodedLength ∧ element.encodedLength ≤ data.length then
        let following := parseAll (data.drop element.encodedLength)
        (element :: following.1, following.2)
      else
        ([], data)
termination_by data.length
decreasing_by exact Bytes.length_drop_lt ‹_›

def sequence? (data : Bytes) : Option (List Element) :=
  match parseAll data with
  | (elements, []) => some elements
  | _ => none

/-- A byte string that looks like embedded elements: at least one, and none of them with the
tag of a terminator. -/
def isSequence (data : Bytes) : Bool :=
  match sequence? data with
  | some elements => !elements.isEmpty && elements.all fun element => !element.tag.isUniversal 0
  | none => false

end Element

end ByteListing.Der
