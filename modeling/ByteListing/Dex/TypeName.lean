/-! # Names of types

A shorty has one character for each type of a method, the return type first.  It does not say
which class a reference belongs to, so a placeholder stands for it.  A descriptor says
everything: brackets for the dimensions of an array, then a primitive type or a class. -/
set_option autoImplicit false
namespace ByteListing.Dex.TypeName

def unknown : String := "unknown"

def primitive? : Char → Option String
  | 'V' => some "void"
  | 'Z' => some "boolean"
  | 'B' => some "byte"
  | 'S' => some "short"
  | 'C' => some "char"
  | 'I' => some "int"
  | 'J' => some "long"
  | 'F' => some "float"
  | 'D' => some "double"
  | _ => none

def ofCode (code : Char) : String :=
  match primitive? code with
  | some name => name
  | none => if code = 'L' then "Object" else if code = '[' then "Array" else unknown

/-- The name of a return type.  For a reference or an array it is the declared one, if that is
known. -/
def ofReturnCode (declared : Option String) (code : Char) : String :=
  if code = 'L' ∨ code = '[' then declared.getD (ofCode code) else ofCode code

def signature (shorty name : String) (declared : Option String) : String :=
  match shorty.toList with
  | [] => unknown ++ " " ++ name ++ "()"
  | code :: parameters =>
    ofReturnCode declared code ++ " " ++ name ++ "(" ++
      ", ".intercalate (parameters.map ofCode) ++ ")"

/-- The name of a descriptor without dimensions, if it is well-formed.  The name of a class
keeps its slashes. -/
def element? : List Char → Option (List Char)
  | [] => none
  | [code] => (primitive? code).map String.toList
  | code :: rest =>
    if code = 'L' ∧ 1 < rest.length ∧ rest.getLast? = some ';' then some rest.dropLast else none

/-- The name of a descriptor.  One that is malformed is its own name. -/
def ofDescriptor (descriptor : String) : String :=
  let dimensions := descriptor.toList.takeWhile (· = '[')
  match element? (descriptor.toList.drop dimensions.length) with
  | some name => String.ofList (name ++ dimensions.flatMap fun _ => ['[', ']'])
  | none => descriptor

end ByteListing.Dex.TypeName
