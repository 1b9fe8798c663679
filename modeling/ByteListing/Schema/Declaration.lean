import ByteListing.Schema.Descriptor

/-! # Declarations

The files of a schema as one sequence of declarations, each under its full name, in the order
in which the checks visit them: a file comes before what it declares, a message before its
alternatives, fields, nested messages, enumerations and extensions, an enumeration before its
values and a service before its methods.

Enumeration values are named in the scope around their enumeration. -/
set_option autoImplicit false
namespace ByteListing.Schema

abbrev Path := List Nat

inductive Declaration where
  | file (file : FileDescriptor)
  | message (fullName : String) (message : MessageDescriptor)
  | oneof (fullName : String) (oneof : OneofDescriptor)
  | field (fullName : String) (path : Path) (owner : String) (message : MessageDescriptor)
      (index : Nat) (field : FieldDescriptor)
  | enum (fullName : String) (enumeration : EnumDescriptor)
  | enumValue (fullName : String) (enumeration : EnumDescriptor) (index : Nat)
      (value : EnumValueDescriptor)
  | service (fullName : String) (service : ServiceDescriptor)
  | method (fullName : String) (method : MethodDescriptor)
  | extension (fullName : String) (path : Path) (field : FieldDescriptor)

def join (scope name : String) : String := if scope.isEmpty then name else scope ++ "." ++ name

namespace Declaration

def ofEnum (scope : String) (enumeration : EnumDescriptor) : List Declaration :=
  enum (join scope enumeration.name) enumeration ::
    enumeration.values.mapIdx fun index value =>
      enumValue (join scope value.name) enumeration index value

def ofService (scope : String) (descriptor : ServiceDescriptor) : List Declaration :=
  let fullName := join scope descriptor.name
  service fullName descriptor ::
    descriptor.methods.map fun declared => method (join fullName declared.name) declared

def ofExtensions (scope : String) (path : Path) (fields : List FieldDescriptor) :
    List Declaration :=
  fields.mapIdx fun index declared =>
    extension (join scope declared.name) (path ++ [index]) declared

def ofFields (fullName : String) (path : Path) (descriptor : MessageDescriptor) :
    List Declaration :=
  descriptor.fields.mapIdx fun index declared =>
    field (join fullName declared.name) (path ++ [2, index]) fullName descriptor index declared

mutual

def ofMessage (scope : String) (path : Path) (descriptor : MessageDescriptor) :
    List Declaration :=
  let fullName := join scope descriptor.name
  message fullName descriptor ::
    ((descriptor.oneofs.map fun declared => oneof (join fullName declared.name) declared) ++
      ofFields fullName path descriptor ++
      ofMessages fullName (path ++ [3]) 0 descriptor.nested ++
      descriptor.enums.flatMap (ofEnum fullName) ++
      ofExtensions fullName (path ++ [6]) descriptor.extensions)
termination_by sizeOf descriptor
decreasing_by
  cases descriptor
  simp
  omega

/-- The declarations of messages that stand under `path` from an index on. -/
def ofMessages (scope : String) (path : Path) (index : Nat) (messages : List MessageDescriptor) :
    List Declaration :=
  match messages with
  | [] => []
  | descriptor :: rest =>
    ofMessage scope (path ++ [index]) descriptor ++ ofMessages scope path (index + 1) rest
termination_by sizeOf messages

end

def ofFile (descriptor : FileDescriptor) : List Declaration :=
  let scope := descriptor.package
  file descriptor ::
    (ofMessages scope [4] 0 descriptor.messages ++
      descriptor.enums.flatMap (ofEnum scope) ++
      descriptor.services.flatMap (ofService scope) ++
      ofExtensions scope [7] descriptor.extensions)

def ofFiles (files : List FileDescriptor) : List (Nat × Declaration) :=
  (files.mapIdx fun index descriptor => (ofFile descriptor).map (index, ·)).flatten

end Declaration

end ByteListing.Schema
