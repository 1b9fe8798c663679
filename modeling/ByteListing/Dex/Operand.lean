import ByteListing.Dex.Opcode
import ByteListing.Text.Quoted

/-! # Operands

An instruction works on registers, literal values, distances to other instructions and
references, which are indices into the tables of a container.  A reference that the container
does not resolve is written as its kind and its index. -/
set_option autoImplicit false
namespace ByteListing.Dex

/-- Resolves references: strings to their text, everything else to how it is written. -/
structure ConstantPool where
  resolve? : ReferenceKind → Nat → Option String

inductive Operand where
  | register (number : Nat)
  | registers (numbers : List Nat)
  | registerRange (first count : Nat)
  | literal (value : Int)
  | branch (distance : Int)
  | reference (kind : ReferenceKind) (index : Nat)
deriving Repr, DecidableEq

namespace Operand

def registerText (number : Nat) : String := "v" ++ toString number

def literalText (value : Int) : String := "#" ++ toString value

/-- How a distance is written: always with a sign. -/
def branchText (distance : Int) : String :=
  if 0 ≤ distance then "+" ++ toString distance else toString distance

def braced (texts : List String) : String := "\x7b" ++ ", ".intercalate texts ++ "\x7d"

def rangeText (first count : Nat) : String :=
  if count = 0 then braced []
  else if count = 1 then braced [registerText first]
  else braced [registerText first ++ " .. " ++ registerText (first + count - 1)]

def referenceText (pool : ConstantPool) (kind : ReferenceKind) (index : Nat) : String :=
  match pool.resolve? kind index with
  | some found => if kind = .string then Quoted.ofString found else found
  | none => kind.label ++ "@" ++ toString index

def text (pool : ConstantPool) : Operand → String
  | register number => registerText number
  | registers numbers => braced (numbers.map registerText)
  | registerRange first count => rangeText first count
  | literal value => literalText value
  | branch distance => branchText distance
  | reference kind index => referenceText pool kind index

end Operand

end ByteListing.Dex
