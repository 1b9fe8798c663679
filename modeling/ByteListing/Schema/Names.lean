import ByteListing.Schema.Declaration
import ByteListing.Schema.Flaw

/-! # The names of a schema

Every declaration is entered under its full name, and so is every leading part of a package.
Only packages may share a name.  Along with the names, what each file says on its own is
checked: file names are distinct, enumerations have values, and where the rules are strict the
first of them is zero and no two fields of a message differ in case and underscores only. -/
set_option autoImplicit false
namespace ByteListing.Schema

inductive DefinitionKind where
  | package
  | message
  | field
  | oneof
  | service
  | method
  | enum
  | enumValue
  | extension
deriving Repr, DecidableEq

structure Definition where
  kind : DefinitionKind
  file : Nat
deriving Repr, DecidableEq

/-- The entries of a schema, first come first. -/
abbrev Names := List (String × Definition)

namespace Names

/-- Enters a name.  A package may be entered again; nothing else may. -/
def enter (files : List FileDescriptor) (name : String) (definition : Definition)
    (names : Names) : Except Flaw Names :=
  match names.lookup name with
  | none => .ok (names ++ [(name, definition)])
  | some earlier =>
    if earlier.kind = .package ∧ definition.kind = .package then
      .ok names
    else
      let fileName (index : Nat) : String := ((files[index]?).map FileDescriptor.name).getD ""
      if fileName earlier.file = fileName definition.file then
        .error (.definedTwice name)
      else
        .error (.definedElsewhere name (fileName earlier.file))

/-- The leading parts of a package, shortest first, and the package itself; an empty one has
none. -/
def packageParts (package : String) : List String :=
  if package.isEmpty then
    []
  else
    let characters := package.toList
    ((List.range characters.length).filterMap fun position =>
      if characters[position]? = some '.' then
        some (String.ofList (characters.take position))
      else
        none) ++ [package]

def folded (name : String) : List Char := (name.toList.filter (· ≠ '_')).map Char.toLower

def checkFolded (earlier : List String) : List String → Except Flaw Unit
  | [] => .ok ()
  | name :: rest =>
    match earlier.find? fun other => folded other = folded name with
    | some first => .error (.camelCaseConflict first name)
    | none => checkFolded (earlier ++ [name]) rest

def checkEnum (isProto3 : Bool) (enumeration : EnumDescriptor) : Except Flaw Unit :=
  match enumeration.values with
  | [] => .error .emptyEnum
  | first :: _ =>
    if isProto3 ∧ first.number ≠ 0 then .error .firstEnumValueNotZero else .ok ()

def declare (files : List FileDescriptor) (index : Nat) (names : Names)
    (declaration : Declaration) : Except Flaw Names := do
  let isProto3 := ((files[index]?).map FileDescriptor.isProto3).getD false
  let enterAs (name : String) (kind : DefinitionKind) : Except Flaw Names :=
    names.enter files name ⟨kind, index⟩
  match declaration with
  | .file file =>
    if (files.take index).any fun earlier => earlier.name == file.name then
      throw (.duplicateFile file.name)
    (packageParts file.package).foldlM
      (fun entered part => Names.enter files part ⟨.package, index⟩ entered) names
  | .message fullName message =>
    let entered ← enterAs fullName .message
    if isProto3 then
      checkFolded [] (message.fields.map FieldDescriptor.name)
    return entered
  | .oneof fullName _ => enterAs fullName .oneof
  | .field fullName .. => enterAs fullName .field
  | .enum fullName enumeration =>
    let entered ← enterAs fullName .enum
    checkEnum isProto3 enumeration
    return entered
  | .enumValue fullName .. => enterAs fullName .enumValue
  | .service fullName _ => enterAs fullName .service
  | .method fullName _ => enterAs fullName .method
  | .extension fullName .. => enterAs fullName .extension

def collect (files : List FileDescriptor) (declarations : List (Nat × Declaration)) :
    Except Flaw Names :=
  declarations.foldlM (fun names (index, declaration) => declare files index names declaration) []

end Names

end ByteListing.Schema
