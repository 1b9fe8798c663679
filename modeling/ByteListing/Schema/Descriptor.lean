import ByteListing.Schema.Options
import ByteListing.Schema.Pool

/-! # Descriptors

The files of a schema as they are written, before any name in them is resolved.  What is absent
reads as an empty text, zero, an optional label or a field of type double. -/
set_option autoImplicit false
namespace ByteListing.Schema

structure Range where
  start : Int
  stop : Int
deriving Repr

inductive DeclaredType where
  | scalar (kind : Kind)
  | named
deriving Repr

/-- A field of a message, or an extension; `extendee` is the message that it says it extends. -/
structure FieldDescriptor where
  name : String
  extendee : Option String
  number : Int
  repeated : Bool
  declaredType : DeclaredType
  typeName : String
  defaultValue : Option String
  oneofIndex : Option Int
  jsonName : Option String
  options : Options
deriving Repr

structure EnumValueDescriptor where
  name : String
  number : Int
  options : Options
deriving Repr

structure EnumDescriptor where
  name : String
  values : List EnumValueDescriptor
  reserved : List Range
  allowAlias : Bool
  options : Options
deriving Repr

structure MethodDescriptor where
  name : String
  input : String
  output : String
  options : Options
deriving Repr

structure ServiceDescriptor where
  name : String
  methods : List MethodDescriptor
  options : Options
deriving Repr

structure OneofDescriptor where
  name : String
  options : Options
deriving Repr

structure MessageDescriptor where
  name : String
  oneofs : List OneofDescriptor
  fields : List FieldDescriptor
  nested : List MessageDescriptor
  enums : List EnumDescriptor
  extensions : List FieldDescriptor
  extensionRanges : List Range
  extensionRangeOptions : List Options
  reserved : List Range
  options : Options

structure FileDescriptor where
  name : String
  package : String
  dependencies : List String
  publicDependencies : List Int
  weakDependencies : List Int
  messages : List MessageDescriptor
  enums : List EnumDescriptor
  services : List ServiceDescriptor
  extensions : List FieldDescriptor
  isProto3 : Bool
  options : Options

def DeclaredType.ofCode : Int → DeclaredType
  | 2 => scalar .float
  | 3 => scalar .int64
  | 4 => scalar .uint64
  | 5 => scalar .int32
  | 6 => scalar .fixed64
  | 7 => scalar .fixed32
  | 8 => scalar .bool
  | 9 => scalar .string
  | 10 | 11 | 14 => named
  | 12 => scalar .bytes
  | 13 => scalar .uint32
  | 15 => scalar .sfixed32
  | 16 => scalar .sfixed64
  | 17 => scalar .sint32
  | 18 => scalar .sint64
  | _ => scalar .double

def repeatedLabel : Int := 3

def Range.ofRecord (record : Record) : Range :=
  ⟨(record.int32? 1).getD 0, (record.int32? 2).getD 0⟩

def FieldDescriptor.ofRecord (record : Record) : FieldDescriptor where
  name := (record.text? 1).getD ""
  extendee := record.text? 2
  number := (record.int32? 3).getD 0
  repeated := record.int32? 4 == some repeatedLabel
  declaredType := .ofCode ((record.int32? 5).getD 0)
  typeName := (record.text? 6).getD ""
  defaultValue := record.text? 7
  oneofIndex := record.int32? 9
  jsonName := record.text? 10
  options := .ofRecord (record.merged 8)

def EnumValueDescriptor.ofRecord (record : Record) : EnumValueDescriptor where
  name := (record.text? 1).getD ""
  number := (record.int32? 2).getD 0
  options := .ofRecord (record.merged 3)

/-- Whether the options of an enumeration let values have the same number, in either way that
options are written. -/
def EnumDescriptor.allowsAlias (options : Record) : Bool :=
  options.flag 2 ||
    (Options.ofRecord options).byName.any fun option => option.gives "allow_alias" "true"

def EnumDescriptor.ofRecord (record : Record) : EnumDescriptor where
  name := (record.text? 1).getD ""
  values := (record.records 2).map EnumValueDescriptor.ofRecord
  reserved := (record.records 4).map Range.ofRecord
  allowAlias := allowsAlias (record.merged 3)
  options := .ofRecord (record.merged 3)

def MethodDescriptor.ofRecord (record : Record) : MethodDescriptor where
  name := (record.text? 1).getD ""
  input := (record.text? 2).getD ""
  output := (record.text? 3).getD ""
  options := .ofRecord (record.merged 4)

def ServiceDescriptor.ofRecord (record : Record) : ServiceDescriptor where
  name := (record.text? 1).getD ""
  methods := (record.records 2).map MethodDescriptor.ofRecord
  options := .ofRecord (record.merged 3)

def OneofDescriptor.ofRecord (record : Record) : OneofDescriptor where
  name := (record.text? 1).getD ""
  options := .ofRecord (record.merged 2)

def MessageDescriptor.ofRecordWith (ofNested : List Record → List MessageDescriptor)
    (record : Record) : MessageDescriptor where
  name := (record.text? 1).getD ""
  oneofs := (record.records 8).map OneofDescriptor.ofRecord
  fields := (record.records 2).map FieldDescriptor.ofRecord
  nested := ofNested (record.records 3)
  enums := (record.records 4).map EnumDescriptor.ofRecord
  extensions := (record.records 6).map FieldDescriptor.ofRecord
  extensionRanges := (record.records 5).map Range.ofRecord
  extensionRangeOptions := (record.records 5).map fun range => .ofRecord (range.merged 3)
  reserved := (record.records 9).map Range.ofRecord
  options := .ofRecord (record.merged 7)

/-- A message that holds messages at most `room` levels deep. -/
def MessageDescriptor.ofRecordNested : (room : Nat) → Record → MessageDescriptor
  | 0 => ofRecordWith fun _ => []
  | room + 1 => ofRecordWith (·.map (ofRecordNested room))

def MessageDescriptor.ofRecord (record : Record) : MessageDescriptor :=
  ofRecordNested Record.maxNesting record

def FileDescriptor.ofRecord (record : Record) : FileDescriptor where
  name := (record.text? 1).getD ""
  package := (record.text? 2).getD ""
  dependencies := record.texts 3
  publicDependencies := (record.numbers 10).map (signed 32)
  weakDependencies := (record.numbers 11).map (signed 32)
  messages := (record.records 4).map MessageDescriptor.ofRecord
  enums := (record.records 5).map EnumDescriptor.ofRecord
  services := (record.records 6).map ServiceDescriptor.ofRecord
  extensions := (record.records 7).map FieldDescriptor.ofRecord
  isProto3 := record.text? 12 == some "proto3"
  options := .ofRecord (record.merged 8)

def FileDescriptor.decodeSet? (data : Bytes) : Option (List FileDescriptor) :=
  (Record.decode? .fileSet data).map fun set => (set.records 1).map FileDescriptor.ofRecord

end ByteListing.Schema
