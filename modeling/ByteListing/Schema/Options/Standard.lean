import ByteListing.Schema.Pool

/-! # Standard option types

Every sort of declarations has a message type for its options.  A schema may declare that type
itself; the types here stand in where it does not. -/
set_option autoImplicit false
namespace ByteListing.Schema

inductive OptionSort where
  | file
  | message
  | extensionRange
  | field
  | oneof
  | enumeration
  | enumValue
  | service
  | method
deriving Repr, DecidableEq

namespace OptionSort

def all : List OptionSort :=
  [file, message, extensionRange, field, oneof, enumeration, enumValue, service, method]

def typeName : OptionSort → String
  | file => "FileOptions"
  | message => "MessageOptions"
  | extensionRange => "ExtensionRangeOptions"
  | field => "FieldOptions"
  | oneof => "OneofOptions"
  | enumeration => "EnumOptions"
  | enumValue => "EnumValueOptions"
  | service => "ServiceOptions"
  | method => "MethodOptions"

def qualified (name : String) : String := "google.protobuf." ++ name

def fullName (sort : OptionSort) : String := qualified sort.typeName

/-- The fields of the options of a sort that are there once, by number. -/
def simpleFields : OptionSort → List (Int × String × Kind)
  | file =>
    [(1, "java_package", .string), (8, "java_outer_classname", .string),
      (10, "java_multiple_files", .bool), (20, "java_generate_equals_and_hash", .bool),
      (27, "java_string_check_utf8", .bool),
      (9, "optimize_for", .enumeration (qualified "FileOptions.OptimizeMode")),
      (11, "go_package", .string), (16, "cc_generic_services", .bool),
      (17, "java_generic_services", .bool), (18, "py_generic_services", .bool),
      (42, "php_generic_services", .bool), (23, "deprecated", .bool),
      (31, "cc_enable_arenas", .bool), (36, "objc_class_prefix", .string),
      (37, "csharp_namespace", .string), (39, "swift_prefix", .string),
      (40, "php_class_prefix", .string), (41, "php_namespace", .string),
      (44, "php_metadata_namespace", .string), (45, "ruby_package", .string)]
  | message =>
    [(1, "message_set_wire_format", .bool), (2, "no_standard_descriptor_accessor", .bool),
      (3, "deprecated", .bool), (7, "map_entry", .bool)]
  | extensionRange | oneof => []
  | field =>
    [(1, "ctype", .enumeration (qualified "FieldOptions.CType")), (2, "packed", .bool),
      (6, "jstype", .enumeration (qualified "FieldOptions.JSType")), (5, "lazy", .bool),
      (15, "unverified_lazy", .bool), (3, "deprecated", .bool), (10, "weak", .bool)]
  | enumeration => [(2, "allow_alias", .bool), (3, "deprecated", .bool)]
  | enumValue => [(1, "deprecated", .bool)]
  | service => [(33, "deprecated", .bool)]
  | method =>
    [(33, "deprecated", .bool),
      (34, "idempotency_level", .enumeration (qualified "MethodOptions.IdempotencyLevel"))]

def byNameField : FieldType :=
  ⟨"uninterpreted_option", 999, .message (qualified "UninterpretedOption"), true⟩

def messageType (sort : OptionSort) : MessageType where
  name := sort.typeName
  fullName := sort.fullName
  fields := (sort.simpleFields.map fun (number, name, kind) => ⟨name, number, kind, false⟩) ++
    [byNameField]
  oneofs := []

end OptionSort

def Pool.standard : Pool where
  messages := OptionSort.all.map OptionSort.messageType
  enums :=
    [⟨OptionSort.qualified "FileOptions.OptimizeMode",
        [("SPEED", 1), ("CODE_SIZE", 2), ("LITE_RUNTIME", 3)]⟩,
      ⟨OptionSort.qualified "FieldOptions.CType",
        [("STRING", 0), ("CORD", 1), ("STRING_PIECE", 2)]⟩,
      ⟨OptionSort.qualified "FieldOptions.JSType",
        [("JS_NORMAL", 0), ("JS_STRING", 1), ("JS_NUMBER", 2)]⟩,
      ⟨OptionSort.qualified "MethodOptions.IdempotencyLevel",
        [("IDEMPOTENCY_UNKNOWN", 0), ("NO_SIDE_EFFECTS", 1), ("IDEMPOTENT", 2)]⟩]

end ByteListing.Schema
