import ByteListing.Fault
import ByteListing.Schema.OptionCheck
import ByteListing.Schema.Typing

/-! # Looking up a message type

A message type is looked up by its full name in a serialized schema.  One leading point is not
part of the name; a second one is kept in messages, but ignored in the search.  A failure says
what is missing: the schema, the name, a consistent schema, or a message of that name, in which
case it also says what else the name refers to. -/
set_option autoImplicit false
namespace ByteListing.Schema

def withoutLeadingPoint (name : String) : String :=
  match name.toList with
  | '.' :: rest => String.ofList rest
  | _ => name

namespace Pool

def decode (schema : Bytes) : Except Flaw Pool := do
  let some files := FileDescriptor.decodeSet? schema | throw .undecodable
  let declarations := Declaration.ofFiles files
  let names ← Names.collect files declarations
  let context := Typing.Context.ofFiles files declarations names
  let pool ← Typing.pool context declarations
  OptionCheck.check context pool declarations
  return pool

def messageMember? (pool : Pool) (scope leaf : String) : Option String :=
  match pool.message? scope with
  | none => none
  | some message =>
    if message.fields.any fun field => field.name == leaf then some "field"
    else if message.oneofs.contains leaf then some "oneof"
    else none

def serviceMember? (pool : Pool) (scope leaf : String) : Option String :=
  match pool.service? scope with
  | none => none
  | some service => if service.methods.contains leaf then some "method" else none

/-- The values of an enumeration are inside the scope around it. -/
def enumMember? (pool : Pool) (scope leaf : String) : Option String :=
  if pool.enums.any fun enumeration =>
      scopeOf enumeration.fullName == scope &&
        enumeration.values.any fun value => value.1 == leaf then
    some "enum value"
  else
    none

/-- What is inside a scope under a simple name, other than messages and the like.  A message or
service may be written with a leading point, the scope of an enumeration may not. -/
def member? (pool : Pool) (scope leaf : String) : Option String :=
  (pool.messageMember? (withoutLeadingPoint scope) leaf).or
    ((pool.serviceMember? (withoutLeadingPoint scope) leaf).or (pool.enumMember? scope leaf))

/-- What a name refers to, if it is no message.  All but packages may be written with a leading
point. -/
def describe? (pool : Pool) (name : String) : Option String :=
  let fullName := withoutLeadingPoint name
  if (pool.enum? fullName).isSome then some "enum"
  else if (pool.service? fullName).isSome then some "service"
  else if (pool.extension? fullName).isSome then some "extension"
  else if pool.packages.contains name then some "package"
  else (splitLast? name).bind fun (scope, leaf) => pool.member? scope leaf

/-- The message type of a given name, which may be written with a leading point, or what is
there instead. -/
def find (pool : Pool) (name : String) : Except Fault MessageType :=
  match pool.message? (withoutLeadingPoint name) with
  | some message => .ok message
  | none =>
    match pool.describe? name with
    | some found => .error (.notAMessage name found)
    | none => .error (.messageNotFound name)

end Pool

def resolve (schema : Bytes) (written : String) : Except Fault (Pool × MessageType) :=
  let name := withoutLeadingPoint written
  if schema.isEmpty then
    .error .emptySchema
  else if name.isEmpty then
    .error .emptyMessageName
  else
    match Pool.decode schema with
    | .error flaw => .error (.malformedSchema flaw.describe)
    | .ok pool => (pool.find name).map (pool, ·)

end ByteListing.Schema
