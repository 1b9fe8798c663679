import ByteListing.Dex.Operand
import ByteListing.Text.Hex

/-! # Instructions

The body of a method is a list of sixteen-bit units.  The low octet of the first unit of an
instruction is its opcode, whose format says how many units belong to it and where they hold
its operands.  Tables of switches and the data of arrays stand among the instructions; they
begin with the opcode that does nothing and say themselves how long they are.

What an instruction holds does not depend on the container that it stands in; only writing it
needs one, to resolve references. -/
set_option autoImplicit false
namespace ByteListing.Dex

inductive Body where
  | operation (opcode : Opcode) (operands : List Operand)
  | unassigned (code : Nat)
  | packedSwitch (firstKey : Int) (targets : List Int)
  | sparseSwitch (cases : List (Int × Int))
  | arrayData (width count : Nat) (data : Bytes)
deriving Repr, DecidableEq

/-- An instruction at a position, counted in units from the start of the body. -/
structure Instruction where
  position : Nat
  body : Body
deriving Repr, DecidableEq

def word (low high : UInt16) : Nat := low.toNat + 65536 * high.toNat

def signedWords : List UInt16 → List Int
  | low :: high :: rest => signed 32 (word low high) :: signedWords rest
  | _ => []

structure Window where
  units : List UInt16

namespace Window

def unit (window : Window) (index : Nat) : Nat := (window.units.getD index 0).toNat

def signedUnit (window : Window) (index : Nat) : Int := signed 16 (window.unit index)

def pair (window : Window) (index : Nat) : Nat :=
  word (window.units.getD index 0) (window.units.getD (index + 1) 0)

def signedPair (window : Window) (index : Nat) : Int := signed 32 (window.pair index)

def signedQuad (window : Window) (index : Nat) : Int :=
  signed 64 (window.pair index + Nat.pow 2 32 * window.pair (index + 2))

/-- The high octet of the first unit. -/
def wide (window : Window) : Nat := window.unit 0 / 256

/-- The lower half of the high octet of the first unit. -/
def low (window : Window) : Nat := window.unit 0 / 256 % 16

/-- The upper half of the high octet of the first unit. -/
def high (window : Window) : Nat := window.unit 0 / 4096

/-- Up to five registers, four of them in the third unit. -/
def registerList (window : Window) : Operand :=
  let third := window.unit 2
  .registers ([third % 16, third / 16 % 16, third / 256 % 16, third / 4096, window.low].take
    window.high)

def operands (window : Window) (opcode : Opcode) : List Operand :=
  let references := fun (index : Nat) =>
    (opcode.reference.map fun kind => Operand.reference kind index).toList
  match opcode.format with
  | .f10x => []
  | .f12x => [.register window.low, .register window.high]
  | .f11n => [.register window.low, .literal (signed 4 window.high)]
  | .f11x => [.register window.wide]
  | .f10t => [.branch (signed 8 window.wide)]
  | .f20t => [.branch (window.signedUnit 1)]
  | .f22x => [.register window.wide, .register (window.unit 1)]
  | .f21t => [.register window.wide, .branch (window.signedUnit 1)]
  | .f21s => [.register window.wide, .literal (window.signedUnit 1)]
  | .f21h =>
    let places := if opcode.name == "const-wide/high16" then 48 else 16
    [.register window.wide, .literal (window.signedUnit 1 * (Nat.pow 2 places : Nat))]
  | .f21c => .register window.wide :: references (window.unit 1)
  | .f23x =>
    [.register window.wide, .register (window.unit 1 % 256), .register (window.unit 1 / 256)]
  | .f22b =>
    [.register window.wide, .register (window.unit 1 % 256),
      .literal (signed 8 (window.unit 1 / 256))]
  | .f22t => [.register window.low, .register window.high, .branch (window.signedUnit 1)]
  | .f22s => [.register window.low, .register window.high, .literal (window.signedUnit 1)]
  | .f22c => .register window.low :: .register window.high :: references (window.unit 1)
  | .f30t => [.branch (window.signedPair 1)]
  | .f32x => [.register (window.unit 1), .register (window.unit 2)]
  | .f31i => [.register window.wide, .literal (window.signedPair 1)]
  | .f31t => [.register window.wide, .branch (window.signedPair 1)]
  | .f31c => .register window.wide :: references (window.pair 1)
  | .f35c => window.registerList :: references (window.unit 1)
  | .f3rc => .registerRange (window.unit 2) window.wide :: references (window.unit 1)
  | .f45cc =>
    window.registerList :: references (window.unit 1) ++ [.reference .proto (window.unit 3)]
  | .f4rcc =>
    .registerRange (window.unit 2) window.wide :: references (window.unit 1) ++
      [.reference .proto (window.unit 3)]
  | .f51l => [.register window.wide, .literal (window.signedQuad 1)]

end Window

namespace Body

def leading? (size : Nat) (units : List UInt16) : Option (List UInt16) :=
  if size ≤ units.length then some (units.take size) else none

/-- Reads a switch over consecutive keys: its size, the first key and the targets. -/
def packedSwitch? (units : List UInt16) : Option (Body × Nat) := do
  let count := (← units[1]?).toNat
  let size := 4 + 2 * count
  let taken ← leading? size units
  let firstKey ← (signedWords (taken.drop 2)).head?
  some (packedSwitch firstKey (signedWords (taken.drop 4)), size)

/-- Reads a switch over any keys: its size, the keys and the targets. -/
def sparseSwitch? (units : List UInt16) : Option (Body × Nat) := do
  let count := (← units[1]?).toNat
  let size := 2 + 4 * count
  let taken ← leading? size units
  let values := signedWords (taken.drop 2)
  some (sparseSwitch ((values.take count).zip (values.drop count)), size)

def octets (unit : UInt16) : Bytes :=
  [UInt8.ofNat (unit.toNat % 256), UInt8.ofNat (unit.toNat / 256)]

/-- Reads the data of an array: the width of an element, their number, and the elements, filled
up to a whole unit. -/
def arrayData? (units : List UInt16) : Option (Body × Nat) := do
  let width := (← units[1]?).toNat
  let count := word (← units[2]?) (← units[3]?)
  let size := 4 + (width * count + 1) / 2
  let taken ← leading? size units
  some (arrayData width count (((taken.drop 4).flatMap octets).take (width * count)), size)

def operation? (first : UInt16) (units : List UInt16) : Option (Body × Nat) :=
  let code := first.toNat % 256
  match Opcode.ofCode? code with
  | none => some (unassigned code, 1)
  | some opcode =>
    (leading? opcode.format.units units).map fun taken =>
      (operation opcode (Window.operands ⟨taken⟩ opcode), opcode.format.units)

/-- Reads what the units begin with, and how many of them it takes. -/
def read? : List UInt16 → Option (Body × Nat)
  | [] => none
  | first :: rest =>
    if first = 0x0100 then packedSwitch? (first :: rest)
    else if first = 0x0200 then sparseSwitch? (first :: rest)
    else if first = 0x0300 then arrayData? (first :: rest)
    else operation? first (first :: rest)

theorem leading?_length {size : Nat} {units taken : List UInt16}
    (found : leading? size units = some taken) : size ≤ units.length := by
  unfold leading? at found
  split at found
  · assumption
  · simp at found

def code : Body → Nat
  | operation opcode _ => opcode.code
  | unassigned code => code
  | packedSwitch .. | sparseSwitch .. | arrayData .. => 0

def mnemonic : Body → String
  | operation opcode _ => opcode.name
  | unassigned code => "unused-" ++ String.ofList [Hex.digit (code / 16), Hex.digit (code % 16)]
  | packedSwitch .. => "packed-switch-payload"
  | sparseSwitch .. => "sparse-switch-payload"
  | arrayData .. => "fill-array-data-payload"

def caseText (case : Int × Int) : String :=
  Operand.literalText case.1 ++ ": " ++ Operand.branchText case.2

def operandText (pool : ConstantPool) : Body → String
  | operation _ operands => ", ".intercalate (operands.map (Operand.text pool))
  | unassigned _ => ""
  | packedSwitch firstKey targets =>
    Operand.literalText firstKey ++ ", " ++ Operand.braced (targets.map Operand.branchText)
  | sparseSwitch cases => Operand.braced (cases.map caseText)
  | arrayData width count data =>
    "width " ++ toString width ++ ", " ++ toString count ++ " elements, " ++ Hex.literal data

end Body

namespace Instruction

def text (pool : ConstantPool) (instruction : Instruction) : String :=
  let operands := instruction.body.operandText pool
  "  " ++ instruction.body.mnemonic ++ (if operands.isEmpty then "" else " " ++ operands)

def decodeFrom (position : Nat) (units : List UInt16) : Except Nat (List Instruction) :=
  if units.isEmpty then
    .ok []
  else
    match Body.read? units with
    | none => .error position
    | some (body, size) =>
      if _ : 0 < size ∧ size ≤ units.length then
        (decodeFrom (position + size) (units.drop size)).map (⟨position, body⟩ :: ·)
      else
        .error position
termination_by units.length
decreasing_by
  rw [List.length_drop]
  omega

def decode (units : List UInt16) : Except Nat (List Instruction) := decodeFrom 0 units

end Instruction

end ByteListing.Dex
