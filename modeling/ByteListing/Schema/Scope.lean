import ByteListing.Schema.Names

/-! # Scopes

A name with a leading point is a full name, and so is every name that is written outside all
scopes.  Any other name is tried in the scopes around its place, innermost first: a simple name
stands for the first suitable thing it finds, while the first part of a dotted name settles the
scope for the rest of it.

A file sees what it declares itself and what the files that it imports declare.  Public imports
of those are seen as well, but not what lies behind a file that is first seen that way. -/
set_option autoImplicit false
namespace ByteListing.Schema

def fileIndices (files : List FileDescriptor) (names : List String) : List Nat :=
  names.filterMap fun name => files.findIdx? fun file => file.name == name

def publicImports (files : List FileDescriptor) (index : Nat) : List Nat :=
  match files[index]? with
  | none => []
  | some file =>
    fileIndices files (file.publicDependencies.filterMap fun position =>
      if 0 ≤ position then file.dependencies[position.toNat]? else none)

/-- Adds what a file imports publicly to the files that are seen.  An import that was seen
before is followed further, a new one is not; `fuel` bounds how far. -/
def seePublic (publicImports : Nat → List Nat) : (fuel : Nat) → Nat → List Nat → List Nat
  | 0, _, seen => seen
  | fuel + 1, file, seen =>
    (publicImports file).foldl
      (fun known imported =>
        if known.contains imported then seePublic publicImports fuel imported known
        else imported :: known)
      seen

/-- The indices of the files whose declarations a file sees.  A chain of imports without a
cycle is no longer than there are files. -/
def visibleFiles (files : List FileDescriptor) (index : Nat) : List Nat :=
  match files[index]? with
  | none => []
  | some file =>
    (fileIndices files file.dependencies).foldl
      (fun seen imported =>
        seePublic (publicImports files) files.length imported (seen.insert imported))
      [index]

/-- The scopes around a place, innermost first: the full name of the place, its leading parts,
and the scope of everything. -/
def enclosing (place : String) : List String :=
  let characters := place.toList
  place ::
    (((List.range characters.length).reverse.filterMap fun position =>
      if characters[position]? = some '.' then
        some (String.ofList (characters.take position))
      else
        none) ++ [""])

namespace Scope

inductive Miss where
  | absent
  | unsuitable (name : String)
  | hidden (name : String)
  | shadowed (candidate : String)
deriving Repr, DecidableEq

/-- Of two misses, the one that is reported: the first, unless it found nothing at all. -/
def Miss.orElse : Miss → Miss → Miss
  | absent, later => later
  | first, _ => first

def isNamespace : DefinitionKind → Bool
  | .package | .message | .service | .enum => true
  | .field | .oneof | .method | .enumValue | .extension => false

def suits : Expectation → DefinitionKind → Bool
  | .message, kind => kind == .message
  | .messageOrEnum, kind => kind == .message || kind == .enum
  | .extension, kind => kind == .extension

def findFull (names : Names) (visible : List Nat) (expected : Expectation)
    (fullName : String) : Except Miss (String × DefinitionKind) :=
  match names.lookup fullName with
  | none => .error .absent
  | some definition =>
    if !visible.contains definition.file then .error (.hidden fullName)
    else if suits expected definition.kind then .ok (fullName, definition.kind)
    else .error (.unsuitable fullName)

/-- Tries a simple name in one scope after the other.  If nothing suits, the innermost thing of
that name says why. -/
def findSimple (names : Names) (visible : List Nat) (expected : Expectation) (name : String) :
    List String → Except Miss (String × DefinitionKind)
  | [] => .error .absent
  | scope :: outer =>
    match findFull names visible expected (join scope name) with
    | .ok found => .ok found
    | .error miss => (findSimple names visible expected name outer).mapError miss.orElse

/-- Tries a dotted name in the innermost scope in which its first part, seen or not, has names
inside. -/
def findDotted (names : Names) (visible : List Nat) (expected : Expectation)
    (first name : String) : List String → Except Miss (String × DefinitionKind)
  | [] => .error .absent
  | scope :: outer =>
    if (names.lookup (join scope first)).any fun definition => isNamespace definition.kind then
      let candidate := join scope name
      match findFull names visible expected candidate with
      | .error .absent => .error (.shadowed candidate)
      | settled => settled
    else
      findDotted names visible expected first name outer

def find (names : Names) (visible : List Nat) (expected : Expectation) (place name : String) :
    Except Miss (String × DefinitionKind) :=
  match name.toList with
  | '.' :: rest => findFull names visible expected (String.ofList rest)
  | characters =>
    let first := String.ofList (characters.takeWhile (· ≠ '.'))
    if place.isEmpty then
      findFull names visible expected name
    else if first = name then
      findSimple names visible expected name (enclosing place)
    else
      findDotted names visible expected first name (enclosing place)

def resolve (names : Names) (visible : List Nat) (expected : Expectation)
    (place name : String) : Except Flaw (String × DefinitionKind) :=
  match find names visible expected place name with
  | .ok found => .ok found
  | .error .absent => .error (.undefined name)
  | .error (.hidden fullName) => .error (.undefined fullName)
  | .error (.unsuitable fullName) => .error (.wrongKind fullName expected)
  | .error (.shadowed candidate) => .error (.shadowed name candidate)

end Scope

end ByteListing.Schema
