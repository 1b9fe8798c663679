import ByteListing.Dex.Classes
import ByteListing.Proofs.Dex.Positions

/-! # How a container is laid out

`Contents` is what a container holds: strings, and tables whose entries refer to others by
indices within their bounds.  Its octets are a header, the six tables, and then the strings, the
lists of parameters and, for each class in turn, the code of its methods and the data of the
class.  Where a table tells the position of a piece, that is where `layOut` puts it; a piece that
is not there is told as position zero. -/
set_option autoImplicit false
namespace ByteListing.Dex

open ByteListing.Bytes (littleOctets)

/-! ## Contents -/

/-- An index into a table that fits sixteen bits. -/
abbrev HalfIndex (count : Nat) := Fin (min count (2 ^ 16))

def widen {count : Nat} (index : HalfIndex count) : Fin count :=
  index.castLE (Nat.min_le_left count (2 ^ 16))

theorem half_small {count : Nat} (index : HalfIndex count) : index.val < 2 ^ 16 :=
  Nat.lt_of_lt_of_le index.isLt (Nat.min_le_right ..)

structure ProtoItem (strings types : Nat) where
  shorty : Fin strings
  returnType : Fin types
  parameters : List (HalfIndex types)

structure FieldItem (strings types : Nat) where
  owner : HalfIndex types
  type : HalfIndex types
  name : Fin strings

structure MethodItem (strings types protos : Nat) where
  owner : HalfIndex types
  proto : HalfIndex protos
  name : Fin strings

structure ClassMethod (methods : Nat) where
  method : Fin methods
  accessFlags : UInt32
  code : Option (List UInt16)

/-- Methods in the order of their indices, which may repeat. -/
def InOrder {methods : Nat} (listed : List (ClassMethod methods)) : Prop :=
  (listed.map fun method => method.method.val).Pairwise (· ≤ ·)

/-- What a class declares.  Fields are pairs of numbers that nothing else refers to. -/
structure ClassData (methods : Nat) where
  staticFields : List (UInt32 × UInt32)
  instanceFields : List (UInt32 × UInt32)
  direct : List (ClassMethod methods)
  virtual : List (ClassMethod methods)
  directOrdered : InOrder direct
  virtualOrdered : InOrder virtual

structure ClassItem (types methods : Nat) where
  type : Fin types
  accessFlags : UInt32
  superclass : Option (Fin types)
  data : Option (ClassData methods)

structure Contents where
  strings : List String
  types : List (Fin strings.length)
  protos : List (ProtoItem strings.length types.length)
  fields : List (FieldItem strings.length types.length)
  methods : List (MethodItem strings.length types.length protos.length)
  classes : List (ClassItem types.length methods.length)

/-! ## Pieces -/

section Pieces

variable {Item Placed : Type}

/-- Puts items one after the other.  `step` says how one is put at a position: what is known of
it from then on, and its octets. -/
def layOut (step : Nat → Item → Placed × Bytes) : (position : Nat) → List Item →
    List Placed × Bytes
  | _, [] => ([], [])
  | position, item :: rest =>
    let placed := step position item
    let others := layOut step (position + placed.2.length) rest
    (placed.1 :: others.1, placed.2 ++ others.2)

def atOnce (write : Item → Bytes) (position : Nat) (item : Item) : (Item × Nat) × Bytes :=
  ((item, position), write item)

def padding (position : Nat) : Bytes := List.replicate ((4 - position % 4) % 4) 0

/-- Puts the octets of an item at a multiple of four, if it has any. -/
def aligned (write? : Item → Option Bytes) (position : Nat) (item : Item) :
    (Item × Nat) × Bytes :=
  match write? item with
  | none => ((item, 0), [])
  | some piece => ((item, position + (padding position).length), padding position ++ piece)

end Pieces

def stringItem (text : String) : Bytes :=
  Base128.groups (Utf16.encode text.toList).length ++ (Mutf8.encode text.toList ++ [0])

def ProtoItem.parameterList? {strings types : Nat} (proto : ProtoItem strings types) :
    Option Bytes :=
  if proto.parameters = [] then none
  else some (littleOctets 4 proto.parameters.length ++
    proto.parameters.flatMap fun type => littleOctets 2 type.val)

/-- What stands before the number of units: one register, no arguments, no handlers and no
description of lines. -/
def codeHead : Bytes := [1, 0, 0, 0, 0, 0, 0, 0, 0, 0, 0, 0]

def codeItem (units : List UInt16) : Bytes :=
  codeHead ++ (littleOctets 4 units.length ++ unitOctets units)

def ClassMethod.codeItem? {methods : Nat} (method : ClassMethod methods) : Option Bytes :=
  method.code.map codeItem

/-- The entries of methods whose code stands at given positions.  Each has its index as the
distance from the one before. -/
def methodOctets {methods : Nat} : (previous : Nat) → List (ClassMethod methods × Nat) → Bytes
  | _, [] => []
  | previous, (method, codeStart) :: rest =>
    Base128.groups (method.method - previous) ++ (Base128.groups method.accessFlags.toNat ++
      (Base128.groups codeStart ++ methodOctets method.method rest))

def fieldNumbers (fields : List (UInt32 × UInt32)) : List Nat :=
  fields.flatMap fun field => [field.1.toNat, field.2.toNat]

def ClassData.octets {methods : Nat} (data : ClassData methods)
    (direct virtual : List (ClassMethod methods × Nat)) : Bytes :=
  Base128.groups data.staticFields.length ++ (Base128.groups data.instanceFields.length ++
    (Base128.groups direct.length ++ (Base128.groups virtual.length ++
      ((fieldNumbers (data.staticFields ++ data.instanceFields)).flatMap Base128.groups ++
        (methodOctets 0 direct ++ methodOctets 0 virtual)))))

structure PlacedClass (types methods : Nat) where
  item : ClassItem types methods
  dataStart : Nat
  direct : List (ClassMethod methods × Nat)
  virtual : List (ClassMethod methods × Nat)

def ClassItem.place {types methods : Nat} (position : Nat) (item : ClassItem types methods) :
    PlacedClass types methods × Bytes :=
  match item.data with
  | none => (⟨item, 0, [], []⟩, [])
  | some data =>
    let direct := layOut (aligned ClassMethod.codeItem?) position data.direct
    let virtual := layOut (aligned ClassMethod.codeItem?) (position + direct.2.length) data.virtual
    (⟨item, position + direct.2.length + virtual.2.length, direct.1, virtual.1⟩,
      direct.2 ++ (virtual.2 ++ data.octets direct.1 virtual.1))

/-! ## Octets -/

def ProtoItem.octets {strings types : Nat} (proto : ProtoItem strings types)
    (parametersStart : Nat) : Bytes :=
  littleOctets 4 proto.shorty.val ++
    (littleOctets 4 proto.returnType.val ++ littleOctets 4 parametersStart)

def FieldItem.octets {strings types : Nat} (field : FieldItem strings types) : Bytes :=
  littleOctets 2 field.owner.val ++
    (littleOctets 2 field.type.val ++ littleOctets 4 field.name.val)

def MethodItem.octets {strings types protos : Nat} (method : MethodItem strings types protos) :
    Bytes :=
  littleOctets 2 method.owner.val ++
    (littleOctets 2 method.proto.val ++ littleOctets 4 method.name.val)

def PlacedClass.octets {types methods : Nat} (placed : PlacedClass types methods) : Bytes :=
  littleOctets 4 placed.item.type.val ++ (littleOctets 4 placed.item.accessFlags.toNat ++
    (littleOctets 4 ((placed.item.superclass.map Fin.val).getD Container.noIndex) ++
      (littleOctets 4 0 ++ littleOctets 4 Container.noIndex ++ littleOctets 4 0 ++
        (littleOctets 4 placed.dataStart ++ littleOctets 4 0))))

/-- A table as the header tells it.  An empty one is told to be nowhere. -/
def Table.placed (kind : TableKind) (size start : Nat) : Table :=
  ⟨kind, size, if size = 0 then 0 else start⟩

def Table.octets (table : Table) : Bytes := littleOctets 4 table.size ++ littleOctets 4 table.start

namespace Contents

variable (contents : Contents)

def stringsStart (_ : Contents) : Nat := Container.headerSize
def typesStart : Nat := contents.stringsStart + contents.strings.length * 4
def protosStart : Nat := contents.typesStart + contents.types.length * 4
def fieldsStart : Nat := contents.protosStart + contents.protos.length * 12
def methodsStart : Nat := contents.fieldsStart + contents.fields.length * 8
def classesStart : Nat := contents.methodsStart + contents.methods.length * 8
def stringDataStart : Nat := contents.classesStart + contents.classes.length * 32

def placedStrings : List (String × Nat) × Bytes :=
  layOut (atOnce stringItem) contents.stringDataStart contents.strings

def parametersStart : Nat := contents.stringDataStart + contents.placedStrings.2.length

def placedProtos :
    List (ProtoItem contents.strings.length contents.types.length × Nat) × Bytes :=
  layOut (aligned ProtoItem.parameterList?) contents.parametersStart contents.protos

def classDataStart : Nat := contents.parametersStart + contents.placedProtos.2.length

def placedClasses :
    List (PlacedClass contents.types.length contents.methods.length) × Bytes :=
  layOut ClassItem.place contents.classDataStart contents.classes

def stringTable : Bytes := contents.placedStrings.1.flatMap fun text => littleOctets 4 text.2

def typeTable : Bytes := contents.types.flatMap fun text => littleOctets 4 text.val

def protoTable : Bytes := contents.placedProtos.1.flatMap fun proto => proto.1.octets proto.2

def fieldTable : Bytes := contents.fields.flatMap FieldItem.octets

def methodTable : Bytes := contents.methods.flatMap MethodItem.octets

def classTable : Bytes := contents.placedClasses.1.flatMap PlacedClass.octets

def body : Bytes :=
  contents.stringTable ++ (contents.typeTable ++ (contents.protoTable ++ (contents.fieldTable ++
    (contents.methodTable ++ (contents.classTable ++ (contents.placedStrings.2 ++
      (contents.placedProtos.2 ++ contents.placedClasses.2)))))))

def tables : List Table := [
  .placed .strings contents.strings.length contents.stringsStart,
  .placed .types contents.types.length contents.typesStart,
  .placed .protos contents.protos.length contents.protosStart,
  .placed .fields contents.fields.length contents.fieldsStart,
  .placed .methods contents.methods.length contents.methodsStart,
  .placed .classes contents.classes.length contents.classesStart]

/-- The header: magic, a checksum and a signature that are not computed, the sizes of all and of
the header, the order of octets, nothing linked, the tables, and no extent of the data. -/
def header : Bytes :=
  [0x64, 0x65, 0x78, 0x0A, 0x30, 0x33, 0x35, 0x00] ++ (List.replicate 24 0 ++
    (littleOctets 4 (Container.headerSize + contents.body.length) ++
      littleOctets 4 Container.headerSize ++ (littleOctets 4 0x12345678 ++ (List.replicate 12 0 ++
        (contents.tables.flatMap Table.octets ++ List.replicate 8 0)))))

def octets : Bytes := contents.header ++ contents.body

/-! ## What references stand for -/

def string (index : Fin contents.strings.length) : String := contents.strings[index]

def descriptor (index : Fin contents.types.length) : String :=
  contents.string contents.types[index]

def prototype (proto : ProtoItem contents.strings.length contents.types.length) : Prototype :=
  ⟨contents.string proto.shorty, contents.descriptor proto.returnType,
    proto.parameters.map fun type => contents.descriptor (widen type)⟩

def protoText (proto : ProtoItem contents.strings.length contents.types.length) : String :=
  "(" ++ String.join (contents.prototype proto).parameters ++ ")" ++
    (contents.prototype proto).returnType

def fieldText (field : FieldItem contents.strings.length contents.types.length) : String :=
  contents.descriptor (widen field.owner) ++ "->" ++ contents.string field.name ++ ":" ++
    contents.descriptor (widen field.type)

def methodText (method : MethodItem contents.strings.length contents.types.length
    contents.protos.length) : String :=
  contents.descriptor (widen method.owner) ++ "->" ++ contents.string method.name ++
    contents.protoText contents.protos[widen method.proto]

def pool : ConstantPool where
  resolve? kind index :=
    match kind with
    | .string => contents.strings[index]?
    | .typeId => contents.types[index]?.map contents.string
    | .field => contents.fields[index]?.map contents.fieldText
    | .method => contents.methods[index]?.map contents.methodText
    | .proto => contents.protos[index]?.map contents.protoText
    | .callSite | .methodHandle => none

def className (declared : ClassItem contents.types.length contents.methods.length) : String :=
  TypeName.ofDescriptor (contents.descriptor declared.type)

def methodName (method : ClassMethod contents.methods.length) : String :=
  contents.string contents.methods[method.method].name

def describeMethod (method : ClassMethod contents.methods.length × Nat) : Method :=
  let proto := contents.prototype contents.protos[widen contents.methods[method.1.method].proto]
  ⟨contents.methodName method.1, proto.shorty, TypeName.ofDescriptor proto.returnType,
    proto.parameters, method.1.accessFlags.toNat, method.2⟩

def describeClass (declared : PlacedClass contents.types.length contents.methods.length) :
    Class :=
  ⟨contents.className declared.item, contents.descriptor declared.item.type,
    declared.item.accessFlags.toNat,
    declared.item.superclass.map fun type => TypeName.ofDescriptor (contents.descriptor type),
    declared.direct.map contents.describeMethod, declared.virtual.map contents.describeMethod⟩

def find? (name : String) : Option (PlacedClass contents.types.length contents.methods.length) :=
  contents.placedClasses.1.find? fun declared => contents.className declared.item == name

/-- The first method of a name, direct methods before virtual ones. -/
def method? (declared : PlacedClass contents.types.length contents.methods.length)
    (name : String) : Option (ClassMethod contents.methods.length × Nat) :=
  (declared.direct ++ declared.virtual).find? fun method => contents.methodName method.1 == name

end Contents

def ClassMethod.instructions {methods : Nat} (method : ClassMethod methods) (start : Nat) :
    Except Fault (List Instruction) :=
  match method.code with
  | none => .ok []
  | some units => decodeCode start units

end ByteListing.Dex
