import ByteListing.Dex.Operand
import ByteListing.Dex.Reading
import ByteListing.Dex.TypeName

/-! # Containers

A container starts with a header, which says where six tables are and how long they are.
Everything else is found from the entries of the tables: strings, types, prototypes, fields,
methods and classes, each of which refers to others by index.

A container is accepted if its header is well-formed and its tables lie within it.  What the
entries refer to is only checked when it is read. -/
set_option autoImplicit false
namespace ByteListing.Dex

structure Table where
  kind : TableKind
  size : Nat
  start : Nat
deriving Repr, DecidableEq

namespace Table

def entry (table : Table) (index : Nat) : Except Fault Nat :=
  if index < table.size then .ok (table.start + index * table.kind.entrySize)
  else .error ((Flaw.tableIndex table.kind index table.size).fault table.start)

end Table

structure Container where
  data : Bytes
  strings : Table
  types : Table
  protos : Table
  fields : Table
  methods : Table
  classes : Table

structure Prototype where
  shorty : String
  returnType : String
  parameters : List String
deriving Repr, DecidableEq

structure MethodReference where
  classIndex : Nat
  protoIndex : Nat
  name : String
deriving Repr, DecidableEq

structure ClassEntry where
  classIndex : Nat
  accessFlags : Nat
  superclassIndex : Nat
  dataStart : Nat
deriving Repr, DecidableEq

structure MethodEntry where
  methodIndex : Nat
  accessFlags : Nat
  codeStart : Nat
deriving Repr, DecidableEq

namespace Container

def headerSize : Nat := 0x70

/-- Whether a header begins as it must: a name, a version in three digits, and a zero. -/
def hasMagic : Bytes → Bool
  | a :: b :: c :: d :: x :: y :: z :: zero :: _ =>
    [a, b, c, d] == [0x64, 0x65, 0x78, 0x0A] &&
      [x, y, z].all (fun digit => 0x30 ≤ digit && digit ≤ 0x39) && zero == 0
  | _ => false

/-- Reads where a table is.  It has to lie within the container. -/
def table (data : Bytes) (kind : TableKind) (position : Nat) : Except Fault Table := do
  let size ← word32 data position
  let start ← word32 data (position + 4)
  if start + size * kind.entrySize ≤ data.length then
    return ⟨kind, size, start⟩
  else
    throw (Flaw.tableBounds.fault position)

def checkOrder (data : Bytes) : Except Fault Unit := do
  let tag ← word32 data 0x28
  if tag = 0x78563412 then
    throw (Flaw.bigEndian.fault 0x28)
  if tag ≠ 0x12345678 then
    throw ((Flaw.endianTag tag).fault 0x28)

def parse (data : Bytes) : Except Fault Container := do
  if data.length < headerSize then
    throw ((Flaw.fileSize data.length).fault 0)
  if !hasMagic data then
    throw (Flaw.magic.fault 0)
  checkOrder data
  let strings ← table data .strings 0x38
  let types ← table data .types 0x40
  let protos ← table data .protos 0x48
  let fields ← table data .fields 0x50
  let methods ← table data .methods 0x58
  let classes ← table data .classes 0x60
  return ⟨data, strings, types, protos, fields, methods, classes⟩

def stringAt (container : Container) (index : Nat) : Except Fault String := do
  let entry ← container.strings.entry index
  let start ← word32 container.data entry
  let (_, position) ← varint container.data start
  textAt container.data position

def typeAt (container : Container) (index : Nat) : Except Fault String := do
  let entry ← container.types.entry index
  container.stringAt (← word32 container.data entry)

def typeList (container : Container) :
    (count position : Nat) → Except Fault (List String)
  | 0, _ => .ok []
  | count + 1, position => do
    let descriptor ← container.typeAt (← half container.data position)
    return descriptor :: (← container.typeList count (position + 2))

/-- The parameters whose list starts at a position; there are none at zero. -/
def parametersAt (container : Container) (start : Nat) : Except Fault (List String) :=
  if start = 0 then
    .ok []
  else
    (word32 container.data start).bind fun count => container.typeList count (start + 4)

def protoAt (container : Container) (index : Nat) : Except Fault Prototype := do
  let entry ← container.protos.entry index
  let shorty ← word32 container.data entry
  let returnType ← word32 container.data (entry + 4)
  let parameters ← container.parametersAt (← word32 container.data (entry + 8))
  return ⟨← container.stringAt shorty, ← container.typeAt returnType, parameters⟩

def methodAt (container : Container) (index : Nat) : Except Fault MethodReference := do
  let entry ← container.methods.entry index
  let classIndex ← half container.data entry
  let protoIndex ← half container.data (entry + 2)
  let name ← word32 container.data (entry + 4)
  return ⟨classIndex, protoIndex, ← container.stringAt name⟩

def protoText (container : Container) (index : Nat) : Except Fault String := do
  let proto ← container.protoAt index
  return "(" ++ String.join proto.parameters ++ ")" ++ proto.returnType

def fieldText (container : Container) (index : Nat) : Except Fault String := do
  let entry ← container.fields.entry index
  let owner ← container.typeAt (← half container.data entry)
  let name ← container.stringAt (← word32 container.data (entry + 4))
  let type ← container.typeAt (← half container.data (entry + 2))
  return owner ++ "->" ++ name ++ ":" ++ type

def methodText (container : Container) (index : Nat) : Except Fault String := do
  let method ← container.methodAt index
  let owner ← container.typeAt method.classIndex
  let proto ← container.protoText method.protoIndex
  return owner ++ "->" ++ method.name ++ proto

/-- Resolves references through the tables.  What cannot be read is not resolved. -/
def pool (container : Container) : ConstantPool where
  resolve? kind index :=
    match kind with
    | .string => (container.stringAt index).toOption
    | .typeId => (container.typeAt index).toOption
    | .field => (container.fieldText index).toOption
    | .method => (container.methodText index).toOption
    | .proto => (container.protoText index).toOption
    | .callSite | .methodHandle => none

def classAt (container : Container) (index : Nat) : Except Fault ClassEntry := do
  let entry ← container.classes.entry index
  return ⟨← word32 container.data entry, ← word32 container.data (entry + 4),
    ← word32 container.data (entry + 8), ← word32 container.data (entry + 24)⟩

def className (container : Container) (entry : ClassEntry) : Except Fault String :=
  (container.typeAt entry.classIndex).map TypeName.ofDescriptor

def noIndex : Nat := 0xFFFFFFFF

def superclassName (container : Container) (entry : ClassEntry) :
    Except Fault (Option String) :=
  if entry.superclassIndex = noIndex then
    .ok none
  else
    (container.typeAt entry.superclassIndex).map fun descriptor =>
      some (TypeName.ofDescriptor descriptor)

def skipVarints (data : Bytes) : (count : Nat) → (position : Nat) → Except Fault Nat
  | 0, position => .ok position
  | count + 1, position =>
    (varint data position).bind fun (_, next) => skipVarints data count next

/-- Methods that follow one another, each with its index as the distance from the one before,
and the position behind them. -/
def methodEntries (data : Bytes) :
    (count previous position : Nat) → Except Fault (List MethodEntry × Nat)
  | 0, _, position => .ok ([], position)
  | count + 1, previous, position => do
    let (distance, next) ← varint data position
    let index := previous + distance
    if Nat.pow 2 32 ≤ index then
      throw (Flaw.methodIndex.fault position)
    let (accessFlags, next) ← varint data next
    let (codeStart, next) ← varint data next
    let (others, behind) ← methodEntries data count index next
    return (⟨index, accessFlags, codeStart⟩ :: others, behind)

def classMethods (container : Container) (entry : ClassEntry) :
    Except Fault (List MethodEntry × List MethodEntry) := do
  if entry.dataStart = 0 then
    return ([], [])
  let data := container.data
  let (staticFields, position) ← varint data entry.dataStart
  let (instanceFields, position) ← varint data position
  let (directCount, position) ← varint data position
  let (virtualCount, position) ← varint data position
  let position ← skipVarints data (2 * (staticFields + instanceFields)) position
  let (direct, position) ← methodEntries data directCount 0 position
  let (virtual, _) ← methodEntries data virtualCount 0 position
  return (direct, virtual)

def codeUnits (container : Container) (start : Nat) : Except Fault (List UInt16) := do
  let count ← word32 container.data (start + 12)
  unitsAt container.data count (start + 16)

end Container

end ByteListing.Dex
