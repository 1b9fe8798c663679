import ByteListing.Dex.Container
import ByteListing.Dex.Instruction

/-! # Classes

Classes are looked up by their names, with slashes, and methods by theirs, both exactly.  Where
several have one name the first is meant; direct methods come before virtual ones. -/
set_option autoImplicit false
namespace ByteListing.Dex

structure Method where
  name : String
  shorty : String
  returnType : String
  parameters : List String
  accessFlags : Nat
  codeStart : Nat
deriving Repr, DecidableEq

namespace Method

/-- A method has code unless it is abstract or native. -/
def hasCode (method : Method) : Bool := method.codeStart != 0

def signature (method : Method) : String :=
  TypeName.signature method.shorty method.name (some method.returnType)

end Method

structure Class where
  name : String
  descriptor : String
  accessFlags : Nat
  superclass : Option String
  directMethods : List Method
  virtualMethods : List Method
deriving Repr, DecidableEq

namespace Class

def methods (declared : Class) : List Method := declared.directMethods ++ declared.virtualMethods

def method? (declared : Class) (name : String) : Option Method :=
  declared.methods.find? fun method => method.name == name

end Class

namespace Container

def classNameAt (container : Container) (index : Nat) : Except Fault String :=
  (container.classAt index).bind container.className

def classNames (container : Container) : Except Fault (List String) :=
  (List.range container.classes.size).mapM container.classNameAt

def locate (container : Container) (name : String) : List Nat → Except Fault ClassEntry
  | [] => .error (.classNotFound name)
  | index :: rest => do
    let entry ← container.classAt index
    if (← container.className entry) == name then
      return entry
    else
      container.locate name rest

def describeMethod (container : Container) (entry : MethodEntry) : Except Fault Method := do
  let reference ← container.methodAt entry.methodIndex
  let proto ← container.protoAt reference.protoIndex
  return ⟨reference.name, proto.shorty, TypeName.ofDescriptor proto.returnType, proto.parameters,
    entry.accessFlags, entry.codeStart⟩

def findClass (container : Container) (name : String) : Except Fault Class := do
  let entry ← container.locate name (List.range container.classes.size)
  let (direct, virtual) ← container.classMethods entry
  let descriptor ← container.typeAt entry.classIndex
  let superclass ← container.superclassName entry
  let directMethods ← direct.mapM container.describeMethod
  let virtualMethods ← virtual.mapM container.describeMethod
  return ⟨name, descriptor, entry.accessFlags, superclass, directMethods, virtualMethods⟩

end Container

/-- The instructions of a body whose code starts at a position of a container.  The units stand
behind sixteen octets of other things. -/
def decodeCode (start : Nat) (units : List UInt16) : Except Fault (List Instruction) :=
  match Instruction.decode units with
  | .ok instructions => .ok instructions
  | .error position =>
    .error ((Flaw.openInstruction position).fault (start + 16 + 2 * position))

def listClasses (data : Bytes) : Except Fault (List String) :=
  (Container.parse data).bind Container.classNames

def findClass (data : Bytes) (name : String) : Except Fault Class :=
  (Container.parse data).bind fun container => container.findClass name

def listMethods (data : Bytes) (className : String) : Except Fault (List Method) :=
  (findClass data className).map Class.methods

/-- The instructions of a method of a container, with what resolves their references.  A method
without code has none. -/
def listInstructions (data : Bytes) (className methodName : String) :
    Except Fault (ConstantPool × List Instruction) := do
  let container ← Container.parse data
  let declared ← container.findClass className
  let some method := declared.method? methodName
    | throw (.methodNotFound className methodName)
  if method.hasCode then
    let units ← container.codeUnits method.codeStart
    return (container.pool, ← decodeCode method.codeStart units)
  else
    return (container.pool, [])

end ByteListing.Dex
