import ByteListing.Dex.Instruction

/-! # Assembling method bodies

The other direction of the instruction reader: a body is put together from instructions whose
operands are fields of the widths that their formats give them.  `Arguments` holds the fields of
one instruction, `Arguments.units` packs them into units, `Arguments.operands` says what they stand
for and `Arguments.texts` how they are written; `Code` adds unassigned opcodes, the two kinds of
switch tables and array data.

Signed fields are read in two's complement.  Octets that a format leaves unused may hold
anything, except that the opcode that does nothing keeps a zero there, because it would be a
table or array data otherwise. -/
set_option autoImplicit false
namespace ByteListing.Dex

/-- The fields of an instruction, by its format and by what its index refers to. -/
inductive Arguments : Format → Option ReferenceKind → Type where
  | f10x : Arguments .f10x none
  | f12x (first second : BitVec 4) : Arguments .f12x none
  | f11n (first value : BitVec 4) : Arguments .f11n none
  | f11x (first : BitVec 8) : Arguments .f11x none
  | f10t (distance : BitVec 8) : Arguments .f10t none
  | f20t (distance : BitVec 16) : Arguments .f20t none
  | f22x (first : BitVec 8) (second : BitVec 16) : Arguments .f22x none
  | f21t (first : BitVec 8) (distance : BitVec 16) : Arguments .f21t none
  | f21s (first : BitVec 8) (value : BitVec 16) : Arguments .f21s none
  | f21h (first : BitVec 8) (value : BitVec 16) : Arguments .f21h none
  | f21c (kind : ReferenceKind) (first : BitVec 8) (index : BitVec 16) :
      Arguments .f21c (some kind)
  | f23x (first second third : BitVec 8) : Arguments .f23x none
  | f22b (first second value : BitVec 8) : Arguments .f22b none
  | f22t (first second : BitVec 4) (distance : BitVec 16) : Arguments .f22t none
  | f22s (first second : BitVec 4) (value : BitVec 16) : Arguments .f22s none
  | f22c (kind : ReferenceKind) (first second : BitVec 4) (index : BitVec 16) :
      Arguments .f22c (some kind)
  | f30t (distance : BitVec 32) : Arguments .f30t none
  | f32x (first second : BitVec 16) : Arguments .f32x none
  | f31i (first : BitVec 8) (value : BitVec 32) : Arguments .f31i none
  | f31t (first : BitVec 8) (distance : BitVec 32) : Arguments .f31t none
  | f31c (kind : ReferenceKind) (first : BitVec 8) (index : BitVec 32) :
      Arguments .f31c (some kind)
  | f35c (kind : ReferenceKind) (registers : List (BitVec 4)) (few : registers.length ≤ 5)
      (index : BitVec 16) : Arguments .f35c (some kind)
  | f3rc (kind : ReferenceKind) (first : BitVec 16) (count : BitVec 8) (index : BitVec 16) :
      Arguments .f3rc (some kind)
  | f45cc (kind : ReferenceKind) (registers : List (BitVec 4)) (few : registers.length ≤ 5)
      (index proto : BitVec 16) : Arguments .f45cc (some kind)
  | f4rcc (kind : ReferenceKind) (first : BitVec 16) (count : BitVec 8)
      (index proto : BitVec 16) : Arguments .f4rcc (some kind)
  | f51l (first : BitVec 8) (value : BitVec 64) : Arguments .f51l none

/-- Sixteen bits of a field, counted from the least significant ones. -/
def piece {width : Nat} (value : BitVec width) (index : Nat) : BitVec 16 :=
  value.extractLsb' (16 * index) 16

def pieces (value : BitVec 32) : List (BitVec 16) := [piece value 0, piece value 1]

/-! ## Operands in writing -/

namespace Spelling

variable {width : Nat}

def register (number : BitVec width) : String := "v" ++ toString number.toNat

def registerList (numbers : List (BitVec 4)) : String :=
  "\x7b" ++ ", ".intercalate (numbers.map register) ++ "\x7d"

/-- Registers one after the other, of which only the first and the last are written. -/
def registerRange (first : BitVec 16) (count : BitVec 8) : String :=
  match count.toNat with
  | 0 => "\x7b\x7d"
  | 1 => "\x7bv" ++ toString first.toNat ++ "\x7d"
  | between + 2 =>
    "\x7bv" ++ toString first.toNat ++ " .. v" ++ toString (first.toNat + between + 1) ++ "\x7d"

def literal (value : BitVec width) : String := "#" ++ toString value.toInt

/-- A distance has a sign, be it negative or not. -/
def distance (value : BitVec width) : String :=
  (if value.msb then "" else "+") ++ toString value.toInt

/-- What an index refers to, strings in quotes.  An index that refers to nothing is written itself,
behind the name of what it was to refer to. -/
def reference (pool : ConstantPool) (kind : ReferenceKind) (index : BitVec width) : String :=
  match pool.resolve? kind index.toNat with
  | some found =>
    match kind with
    | .string => Quoted.ofString found
    | _ => found
  | none =>
    match kind with
    | .string => "string@" ++ toString index.toNat
    | .typeId => "type@" ++ toString index.toNat
    | .field => "field@" ++ toString index.toNat
    | .method => "method@" ++ toString index.toNat
    | .proto => "proto@" ++ toString index.toNat
    | .callSite => "call_site@" ++ toString index.toNat
    | .methodHandle => "method_handle@" ++ toString index.toNat

end Spelling

namespace Arguments

variable {format : Format} {reference : Option ReferenceKind}

/-- The unit that holds the number of registers, the fifth of them and the opcode. -/
def listHead (registers : List (BitVec 4)) (opcode : BitVec 8) : BitVec 16 :=
  BitVec.ofNat 4 registers.length ++ registers.getD 4 0#4 ++ opcode

/-- The unit that holds the first four registers of a list. -/
def listTail (registers : List (BitVec 4)) : BitVec 16 :=
  registers.getD 3 0#4 ++ registers.getD 2 0#4 ++ registers.getD 1 0#4 ++ registers.getD 0 0#4

/-- The units of an instruction.  Fields that share a unit are written with the most
significant one first; `unused` fills the octet behind the opcode where it holds no field. -/
def units (opcode unused : BitVec 8) : Arguments format reference → List (BitVec 16)
  | f10x => [unused ++ opcode]
  | f12x first second => [second ++ first ++ opcode]
  | f11n first value => [value ++ first ++ opcode]
  | f11x first => [first ++ opcode]
  | f10t distance => [distance ++ opcode]
  | f20t distance => [unused ++ opcode, distance]
  | f22x first second => [first ++ opcode, second]
  | f21t first distance => [first ++ opcode, distance]
  | f21s first value => [first ++ opcode, value]
  | f21h first value => [first ++ opcode, value]
  | f21c _ first index => [first ++ opcode, index]
  | f23x first second third => [first ++ opcode, third ++ second]
  | f22b first second value => [first ++ opcode, value ++ second]
  | f22t first second distance => [second ++ first ++ opcode, distance]
  | f22s first second value => [second ++ first ++ opcode, value]
  | f22c _ first second index => [second ++ first ++ opcode, index]
  | f30t distance => [unused ++ opcode, piece distance 0, piece distance 1]
  | f32x first second => [unused ++ opcode, first, second]
  | f31i first value => [first ++ opcode, piece value 0, piece value 1]
  | f31t first distance => [first ++ opcode, piece distance 0, piece distance 1]
  | f31c _ first index => [first ++ opcode, piece index 0, piece index 1]
  | f35c _ registers _ index => [listHead registers opcode, index, listTail registers]
  | f3rc _ first count index => [count ++ opcode, index, first]
  | f45cc _ registers _ index proto =>
    [listHead registers opcode, index, listTail registers, proto]
  | f4rcc _ first count index proto => [count ++ opcode, index, first, proto]
  | f51l first value =>
    [first ++ opcode, piece value 0, piece value 1, piece value 2, piece value 3]

/-- What the fields stand for.  A literal of format 21h is moved up by `places` bits. -/
def operands (places : Nat) : Arguments format reference → List Operand
  | f10x => []
  | f12x first second => [.register first.toNat, .register second.toNat]
  | f11n first value => [.register first.toNat, .literal value.toInt]
  | f11x first => [.register first.toNat]
  | f10t distance => [.branch distance.toInt]
  | f20t distance => [.branch distance.toInt]
  | f22x first second => [.register first.toNat, .register second.toNat]
  | f21t first distance => [.register first.toNat, .branch distance.toInt]
  | f21s first value => [.register first.toNat, .literal value.toInt]
  | f21h first value => [.register first.toNat, .literal (value.toInt * Nat.pow 2 places)]
  | f21c kind first index => [.register first.toNat, .reference kind index.toNat]
  | f23x first second third =>
    [.register first.toNat, .register second.toNat, .register third.toNat]
  | f22b first second value =>
    [.register first.toNat, .register second.toNat, .literal value.toInt]
  | f22t first second distance =>
    [.register first.toNat, .register second.toNat, .branch distance.toInt]
  | f22s first second value =>
    [.register first.toNat, .register second.toNat, .literal value.toInt]
  | f22c kind first second index =>
    [.register first.toNat, .register second.toNat, .reference kind index.toNat]
  | f30t distance => [.branch distance.toInt]
  | f32x first second => [.register first.toNat, .register second.toNat]
  | f31i first value => [.register first.toNat, .literal value.toInt]
  | f31t first distance => [.register first.toNat, .branch distance.toInt]
  | f31c kind first index => [.register first.toNat, .reference kind index.toNat]
  | f35c kind registers _ index =>
    [.registers (registers.map BitVec.toNat), .reference kind index.toNat]
  | f3rc kind first count index =>
    [.registerRange first.toNat count.toNat, .reference kind index.toNat]
  | f45cc kind registers _ index proto =>
    [.registers (registers.map BitVec.toNat), .reference kind index.toNat,
      .reference .proto proto.toNat]
  | f4rcc kind first count index proto =>
    [.registerRange first.toNat count.toNat, .reference kind index.toNat,
      .reference .proto proto.toNat]
  | f51l first value => [.register first.toNat, .literal value.toInt]

/-- The operands as they are written.  The literal of format 21h has `places` zeros behind it. -/
def texts (pool : ConstantPool) (places : Nat) : Arguments format reference → List String
  | f10x => []
  | f12x first second => [Spelling.register first, Spelling.register second]
  | f11n first value => [Spelling.register first, Spelling.literal value]
  | f11x first => [Spelling.register first]
  | f10t distance => [Spelling.distance distance]
  | f20t distance => [Spelling.distance distance]
  | f22x first second => [Spelling.register first, Spelling.register second]
  | f21t first distance => [Spelling.register first, Spelling.distance distance]
  | f21s first value => [Spelling.register first, Spelling.literal value]
  | f21h first value => [Spelling.register first, Spelling.literal (value ++ BitVec.ofNat places 0)]
  | f21c kind first index => [Spelling.register first, Spelling.reference pool kind index]
  | f23x first second third =>
    [Spelling.register first, Spelling.register second, Spelling.register third]
  | f22b first second value =>
    [Spelling.register first, Spelling.register second, Spelling.literal value]
  | f22t first second distance =>
    [Spelling.register first, Spelling.register second, Spelling.distance distance]
  | f22s first second value =>
    [Spelling.register first, Spelling.register second, Spelling.literal value]
  | f22c kind first second index =>
    [Spelling.register first, Spelling.register second, Spelling.reference pool kind index]
  | f30t distance => [Spelling.distance distance]
  | f32x first second => [Spelling.register first, Spelling.register second]
  | f31i first value => [Spelling.register first, Spelling.literal value]
  | f31t first distance => [Spelling.register first, Spelling.distance distance]
  | f31c kind first index => [Spelling.register first, Spelling.reference pool kind index]
  | f35c kind registers _ index =>
    [Spelling.registerList registers, Spelling.reference pool kind index]
  | f3rc kind first count index =>
    [Spelling.registerRange first count, Spelling.reference pool kind index]
  | f45cc kind registers _ index proto =>
    [Spelling.registerList registers, Spelling.reference pool kind index,
      Spelling.reference pool .proto proto]
  | f4rcc kind first count index proto =>
    [Spelling.registerRange first count, Spelling.reference pool kind index,
      Spelling.reference pool .proto proto]
  | f51l first value => [Spelling.register first, Spelling.literal value]

def blank? : (format : Format) → (reference : Option ReferenceKind) →
    Option (Arguments format reference)
  | .f10x, none => some .f10x
  | .f12x, none => some (.f12x 0 0)
  | .f11n, none => some (.f11n 0 0)
  | .f11x, none => some (.f11x 0)
  | .f10t, none => some (.f10t 0)
  | .f20t, none => some (.f20t 0)
  | .f22x, none => some (.f22x 0 0)
  | .f21t, none => some (.f21t 0 0)
  | .f21s, none => some (.f21s 0 0)
  | .f21h, none => some (.f21h 0 0)
  | .f21c, some kind => some (.f21c kind 0 0)
  | .f23x, none => some (.f23x 0 0 0)
  | .f22b, none => some (.f22b 0 0 0)
  | .f22t, none => some (.f22t 0 0 0)
  | .f22s, none => some (.f22s 0 0 0)
  | .f22c, some kind => some (.f22c kind 0 0 0)
  | .f30t, none => some (.f30t 0)
  | .f32x, none => some (.f32x 0 0)
  | .f31i, none => some (.f31i 0 0)
  | .f31t, none => some (.f31t 0 0)
  | .f31c, some kind => some (.f31c kind 0 0)
  | .f35c, some kind => some (.f35c kind [] (Nat.zero_le _) 0)
  | .f3rc, some kind => some (.f3rc kind 0 0 0)
  | .f45cc, some kind => some (.f45cc kind [] (Nat.zero_le _) 0 0)
  | .f4rcc, some kind => some (.f4rcc kind 0 0 0 0)
  | .f51l, none => some (.f51l 0 0)
  | _, _ => none

/-- Every assigned opcode can be assembled: it refers to something exactly if its format has
an index. -/
theorem nonempty_of_mem_all {opcode : Opcode} (assigned : opcode ∈ Opcode.all) :
    Nonempty (Arguments opcode.format opcode.reference) := by
  have blank : ∀ opcode ∈ Opcode.all, (blank? opcode.format opcode.reference).isSome := by
    decide +kernel
  exact ⟨(blank? opcode.format opcode.reference).get (blank opcode assigned)⟩

end Arguments

inductive Code where
  | operation (opcode : Opcode) (assigned : opcode ∈ Opcode.all)
      (arguments : Arguments opcode.format opcode.reference) (unused : BitVec 8)
      (idle : opcode.code = 0 → unused = 0)
  | unassigned (code : BitVec 8) (free : ∀ opcode ∈ Opcode.all, opcode.code ≠ code.toNat)
      (unused : BitVec 8)
  | packedSwitch (firstKey : BitVec 32) (targets : List (BitVec 32))
      (countable : targets.length < Nat.pow 2 16)
  | sparseSwitch (cases : List (BitVec 32 × BitVec 32)) (countable : cases.length < Nat.pow 2 16)
  /-- The elements of an array; `padding` fills the last unit if they end in the middle of it. -/
  | arrayData (width : BitVec 16) (count : BitVec 32) (data : Bytes)
      (complete : data.length = width.toNat * count.toNat) (padding : UInt8)

namespace Code

def pairs (padding : UInt8) : Bytes → List (BitVec 16)
  | low :: high :: rest => (high.toBitVec ++ low.toBitVec) :: pairs padding rest
  | [low] => [padding.toBitVec ++ low.toBitVec]
  | [] => []

def fields : Code → List (BitVec 16)
  | operation opcode _ arguments unused _ => arguments.units (BitVec.ofNat 8 opcode.code) unused
  | unassigned code _ unused => [unused ++ code]
  | packedSwitch firstKey targets _ =>
    0x0100#16 :: BitVec.ofNat 16 targets.length :: (firstKey :: targets).flatMap pieces
  | sparseSwitch cases _ =>
    0x0200#16 :: BitVec.ofNat 16 cases.length ::
      (cases.map Prod.fst ++ cases.map Prod.snd).flatMap pieces
  | arrayData width count data _ padding =>
    0x0300#16 :: width :: (pieces count ++ pairs padding data)

def units (code : Code) : List UInt16 := code.fields.map UInt16.ofBitVec

/-- The bits that the literal of an opcode is moved up by. -/
def places (opcode : Opcode) : Nat := if opcode.code = 0x19 then 48 else 16

def body : Code → Body
  | operation opcode _ arguments _ _ => .operation opcode (arguments.operands (places opcode))
  | unassigned code _ _ => .unassigned code.toNat
  | packedSwitch firstKey targets _ => .packedSwitch firstKey.toInt (targets.map BitVec.toInt)
  | sparseSwitch cases _ =>
    .sparseSwitch (cases.map fun case => (case.1.toInt, case.2.toInt))
  | arrayData width count data _ _ => .arrayData width.toNat count.toNat data

def opcode : Code → Nat
  | operation opcode .. => opcode.code
  | unassigned code .. => code.toNat
  | packedSwitch .. | sparseSwitch .. | arrayData .. => 0

def mnemonic : Code → String
  | operation opcode .. => opcode.name
  | unassigned code .. => "unused-" ++ Hex.text [UInt8.ofBitVec code]
  | packedSwitch .. => "packed-switch-payload"
  | sparseSwitch .. => "sparse-switch-payload"
  | arrayData .. => "fill-array-data-payload"

def text (pool : ConstantPool) : Code → String
  | operation opcode _ arguments _ _ =>
    ", ".intercalate (arguments.texts pool (places opcode))
  | unassigned .. => ""
  | packedSwitch firstKey targets _ =>
    Spelling.literal firstKey ++ ", \x7b" ++
      ", ".intercalate (targets.map Spelling.distance) ++ "\x7d"
  | sparseSwitch cases _ =>
    "\x7b" ++ ", ".intercalate (cases.map fun case =>
      Spelling.literal case.1 ++ ": " ++ Spelling.distance case.2) ++ "\x7d"
  | arrayData width count data _ _ =>
    "width " ++ toString width.toNat ++ ", " ++ toString count.toNat ++ " elements, `" ++
      Hex.text data ++ "`"

/-- The line of an instruction: indented, with its operands behind a space if it has any. -/
def line (pool : ConstantPool) (code : Code) : String :=
  if code.text pool = "" then "  " ++ code.mnemonic
  else "  " ++ code.mnemonic ++ " " ++ code.text pool

end Code

def assemble (program : List Code) : List UInt16 := program.flatMap Code.units

end ByteListing.Dex
