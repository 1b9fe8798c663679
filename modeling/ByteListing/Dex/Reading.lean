import ByteListing.Bytes.Base128
import ByteListing.Dex.Mutf8
import ByteListing.Fault

/-! # Reading a container

Numbers are read at a position of a container, the least significant octet first.  A failure
names the position of what could not be read. -/
set_option autoImplicit false
namespace ByteListing.Dex

inductive Piece where
  | byte
  | half
  | word
  | codeUnits
deriving Repr, DecidableEq

namespace Piece

def name : Piece → String
  | byte => "byte"
  | half => "u16"
  | word => "u32"
  | codeUnits => "code units"

end Piece

inductive TableKind where
  | strings
  | types
  | protos
  | fields
  | methods
  | classes
deriving Repr, DecidableEq

namespace TableKind

def entryName : TableKind → String
  | strings => "string"
  | types => "type"
  | protos => "proto"
  | fields => "field"
  | methods => "method"
  | classes => "class_def"

def entrySize : TableKind → Nat
  | strings | types => 4
  | protos => 12
  | fields | methods => 8
  | classes => 32

end TableKind

inductive Flaw where
  | truncated (piece : Piece)
  | longVarint
  | openString
  | methodIndex
  | fileSize (length : Nat)
  | magic
  | bigEndian
  | endianTag (tag : Nat)
  | tableBounds
  | tableIndex (table : TableKind) (index entries : Nat)
  | openInstruction (position : Nat)
deriving Repr, DecidableEq

namespace Flaw

def describe : Flaw → String
  | truncated piece => "truncated " ++ piece.name
  | longVarint => "uleb128 value longer than five bytes"
  | openString => "unterminated string data"
  | methodIndex => "method index overflows"
  | fileSize length => "file is " ++ toString length ++ " bytes, shorter than the header"
  | magic => "bad magic"
  | bigEndian => "big-endian containers are not supported"
  | endianTag tag => "bad endian tag 0x" ++ Hex.padded 8 tag
  | tableBounds => "id table extends past end of file"
  | tableIndex table index entries =>
    table.entryName ++ " index " ++ toString index ++ " out of range (" ++ toString entries ++
      " entries)"
  | openInstruction position =>
    "instruction at code unit " ++ toString position ++ " runs past the end of the method"

def fault (flaw : Flaw) (position : Nat) : Fault := .malformedContainer position flaw.describe

end Flaw

def take (data : Bytes) (piece : Piece) (length position : Nat) : Except Fault Bytes :=
  match Bytes.slice? data position length with
  | some octets => .ok octets
  | none => .error ((Flaw.truncated piece).fault position)

def half (data : Bytes) (position : Nat) : Except Fault Nat :=
  (take data .half 2 position).map Bytes.littleEndian

def word32 (data : Bytes) (position : Nat) : Except Fault Nat :=
  (take data .word 4 position).map Bytes.littleEndian

/-- The number in one to five octets of seven bits each, modulo `2 ^ 32`, and the position
behind it. -/
def varint (data : Bytes) (position : Nat) : Except Fault (Nat × Nat) :=
  let window := (data.drop position).take 5
  match Base128.splitGroups 5 window with
  | some (groups, _) => .ok (Base128.leastFirst groups % Nat.pow 2 32, position + groups.length)
  | none =>
    if window.length = 5 then .error (Flaw.longVarint.fault position)
    else .error ((Flaw.truncated .byte).fault (position + window.length))

/-- The text of the octets before the next zero, and the position behind that zero. -/
def terminatedText (data : Bytes) (position : Nat) : Except Fault (String × Nat) :=
  let rest := data.drop position
  let octets := rest.takeWhile (· ≠ 0)
  if octets.length < rest.length then
    .ok (String.ofList (Mutf8.decode octets), position + octets.length + 1)
  else
    .error (Flaw.openString.fault position)

def textAt (data : Bytes) (position : Nat) : Except Fault String :=
  (terminatedText data position).map Prod.fst

def unitsAt (data : Bytes) (count position : Nat) : Except Fault (List UInt16) :=
  (take data .codeUnits (2 * count) position).map fun octets =>
    (Bytes.chunks 2 octets).map fun unit => UInt16.ofNat unit.littleEndian

end ByteListing.Dex
