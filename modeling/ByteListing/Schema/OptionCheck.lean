import ByteListing.Schema.Options.Standard
import ByteListing.Schema.Options.Value
import ByteListing.Schema.Typing

/-! # Options by name

An option by name sets a field of the options of its declaration, or of a message inside them.
Every part of the name is a field of the message type reached so far, or an extension of it that
is visible at the declaration.  All but the last part lead to a message; the last one to a field
that is repeated or not set yet, and that takes the value. -/
set_option autoImplicit false
namespace ByteListing.Schema.OptionCheck

def ofDeclaration : Declaration → List (OptionSort × String × Options)
  | .file file => [(.file, file.package, file.options)]
  | .message fullName message =>
    (.message, fullName, message.options) ::
      message.extensionRangeOptions.map fun options => (.extensionRange, fullName, options)
  | .oneof fullName oneof => [(.oneof, fullName, oneof.options)]
  | .field fullName _ _ _ _ field | .extension fullName _ field =>
    [(.field, fullName, field.options)]
  | .enum fullName enumeration => [(.enumeration, fullName, enumeration.options)]
  | .enumValue fullName _ _ value => [(.enumValue, fullName, value.options)]
  | .service fullName service => [(.service, fullName, service.options)]
  | .method fullName method => [(.method, fullName, method.options)]

/-- What the names of the options of a declaration are looked up in: the types of options, and
the extensions that are visible from a place in a file. -/
structure Setting where
  context : Typing.Context
  file : Nat
  place : String
  types : Pool
  extensions : Pool

namespace Setting

def fieldOf (setting : Setting) (message : MessageType) (above : OptionName)
    (part : OptionNamePart) : Except Flaw FieldType :=
  if part.isExtension then do
    let (fullName, _) ←
      setting.context.resolve setting.file .extension setting.place part.name
    match setting.extensions.extension? fullName with
    | none => throw (.undefined fullName)
    | some extension =>
      if extension.extendee = message.fullName then
        return extension.field
      else
        throw (.optionExtendee message.fullName fullName extension.extendee)
  else
    match message.fieldNamed? part.name with
    | some field => .ok field
    | none => .error (.unknownOption (OptionName.text (above ++ [part])))

def kindName : Kind → String
  | .message fullName => fullName
  | kind => DefaultValue.kindName kind

/-- Sets the field that the rest of an option's name leads to from a message type.  What is set
is known by the numbers of the fields on the way, and so is the place of the message. -/
def assign (setting : Setting) (option : NamedOption) (message : MessageType)
    (above : OptionName) (numbers : List Int) (known : List (List Int)) :
    OptionName → Except Flaw (List (List Int))
  | [] => .ok known
  | part :: rest => do
    let field ← setting.fieldOf message above part
    let name := OptionName.text (above ++ [part])
    let reached := numbers ++ [field.number]
    if rest.isEmpty then
      if !field.repeated && known.contains reached then
        throw (.optionSetTwice name)
      if !option.suits setting.types field.kind then
        throw (.optionValue name (kindName field.kind) option.valueText)
      return reached :: known
    else
      let inner :=
        match field.kind with
        | .message fullName => if field.repeated then none else setting.types.message? fullName
        | _ => none
      match inner with
      | none => throw (.optionScalar name (kindName field.kind))
      | some inner => setting.assign option inner (above ++ [part]) reached (reached :: known) rest

end Setting

def checkOptions (context : Typing.Context) (pool : Pool) (file : Nat) (sort : OptionSort)
    (place : String) (options : Options) : Except Flaw Unit := do
  let types := if (pool.message? sort.fullName).isSome then pool else .standard
  let setting : Setting := ⟨context, file, place, types, pool⟩
  if let some message := types.message? sort.fullName then
    let known := options.set.map fun number => [Int.ofNat number]
    let _ ← options.byName.foldlM
      (fun known option => setting.assign option message [] [] known option.name) known

def check (context : Typing.Context) (pool : Pool) (declarations : List (Nat × Declaration)) :
    Except Flaw Unit :=
  declarations.forM fun (file, declaration) =>
    (ofDeclaration declaration).forM fun (sort, place, options) =>
      checkOptions context pool file sort place options

end ByteListing.Schema.OptionCheck
