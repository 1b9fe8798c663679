import ByteListing.Text.Cut

/-! # Arguments of the command line

A flag is a switch, or a setting that takes a value.  Long flags may be written with one dash
instead of two, wherever a flag can stand; the value of a setting is left as it is.  Switches
and settings may be given once, except for the one that asks for more log lines. -/
set_option autoImplicit false
namespace ByteListing.CommandLine

inductive Switch where
  | pem
  | allPem
  | hex
  | verbose
  | help
  | version
deriving Repr, DecidableEq

inductive Setting where
  | input
  | output
  | password
deriving Repr, DecidableEq

inductive Flag where
  | switch (switch : Switch)
  | setting (setting : Setting)
deriving Repr, DecidableEq

namespace Flag

def longNames : List (String × Flag) :=
  [("pem", .switch .pem), ("pem-all", .switch .allPem), ("pem-password", .setting .password),
    ("hex", .switch .hex), ("verbose", .switch .verbose), ("help", .switch .help),
    ("version", .switch .version)]

def ofLong? (name : String) : Option Flag := longNames.lookup name

def ofLetter? : Char → Option Flag
  | 'i' => some (.setting .input)
  | 'o' => some (.setting .output)
  | 'v' => some (.switch .verbose)
  | 'h' => some (.switch .help)
  | 'V' => some (.switch .version)
  | _ => none

end Flag

def cutValue (text : List Char) : String × Option String :=
  match cut? ['='] text with
  | none => (String.ofList text, none)
  | some (name, value) => (String.ofList name, some (String.ofList value))

def withTwoDashes (argument : String) : String :=
  match argument.toList with
  | '-' :: name => if (Flag.ofLong? (cutValue name).1).isSome then "-" ++ argument else argument
  | _ => argument

def takesNext (argument : String) : Bool :=
  argument == "-i" || argument == "-o" || argument == "--pem-password"

/-- How arguments of some type hold texts.  An argument may hold none. -/
structure Wording (Argument : Type) where
  ofText : String → Argument
  text? : Argument → Option String
  text?_eq_some_iff : ∀ {argument : Argument} {text : String},
    text? argument = some text ↔ argument = ofText text

def Wording.plain : Wording String := ⟨id, some, Option.some_inj⟩

/-- Arguments with all long flags written with two dashes, up to the argument behind which
there are no flags.  What is no text is no flag. -/
def normalizeWith {Argument : Type} (wording : Wording Argument) : List Argument → List Argument
  | [] => []
  | argument :: rest =>
    match wording.text? argument with
    | none => argument :: normalizeWith wording rest
    | some text =>
      if text = "--" then
        argument :: rest
      else if takesNext (withTwoDashes text) then
        match rest with
        | [] => [wording.ofText (withTwoDashes text)]
        | value :: others =>
          wording.ofText (withTwoDashes text) :: value :: normalizeWith wording others
      else
        wording.ofText (withTwoDashes text) :: normalizeWith wording rest

def normalizeLine {Argument : Type} (wording : Wording Argument) : List Argument → List Argument
  | [] => []
  | program :: arguments => program :: normalizeWith wording arguments

def normalize : List String → List String := normalizeWith .plain

structure Options where
  input : Option String := none
  output : Option String := none
  password : Option String := none
  pem : Bool := false
  allPem : Bool := false
  hex : Bool := false
  verbosity : Nat := 0
deriving Repr, DecidableEq

inductive Stop where
  | usage
  | help
  | version
deriving Repr, DecidableEq

namespace Options

def enable (options : Options) : Switch → Except Stop Options
  | .pem => if options.pem then .error .usage else .ok { options with pem := true }
  | .allPem => if options.allPem then .error .usage else .ok { options with allPem := true }
  | .hex => if options.hex then .error .usage else .ok { options with hex := true }
  | .verbose => .ok { options with verbosity := options.verbosity + 1 }
  | .help => .error .help
  | .version => .error .version

def assign (options : Options) (setting : Setting) (value : String) : Except Stop Options :=
  match setting with
  | .input =>
    if options.input.isSome ∨ value.isEmpty then .error .usage
    else .ok { options with input := some value }
  | .output =>
    if options.output.isSome ∨ value.isEmpty then .error .usage
    else .ok { options with output := some value }
  | .password =>
    if options.password.isSome then .error .usage
    else .ok { options with password := some value }

/-- Reads a long flag.  A setting without an attached value is returned to be given one. -/
def readLong (options : Options) (text : List Char) : Except Stop (Options × Option Setting) :=
  match Flag.ofLong? (cutValue text).1, (cutValue text).2 with
  | none, _ | some (.switch _), some _ => .error .usage
  | some (.switch switch), none => (options.enable switch).map (·, none)
  | some (.setting setting), none => .ok (options, some setting)
  | some (.setting setting), some value => (options.assign setting value).map (·, none)

/-- Reads the letters behind a dash.  What follows the letter of a setting is its value, with
an equals sign before it or without. -/
def readLetters (options : Options) : List Char → Except Stop (Options × Option Setting)
  | [] => .ok (options, none)
  | letter :: rest =>
    match Flag.ofLetter? letter, rest with
    | none, _ => .error .usage
    | some (.switch switch), _ =>
      (options.enable switch).bind fun changed => changed.readLetters rest
    | some (.setting setting), [] => .ok (options, some setting)
    | some (.setting setting), '=' :: value =>
      (options.assign setting (String.ofList value)).map (·, none)
    | some (.setting setting), value =>
      (options.assign setting (String.ofList value)).map (·, none)

def readFlag (options : Options) (argument : String) : Except Stop (Options × Option Setting) :=
  match argument.toList with
  | '-' :: '-' :: text => options.readLong text
  | '-' :: letter :: rest => options.readLetters (letter :: rest)
  | _ => .error .usage

/-- Whether an argument is taken for a flag, and not for a value.  A single dash is a value. -/
def isFlag (argument : String) : Bool :=
  match argument.toList with
  | '-' :: _ :: _ => true
  | _ => false

def read (options : Options) : List String → Except Stop Options
  | [] => .ok options
  | argument :: rest =>
    if argument = "--" then
      if rest.isEmpty then .ok options else .error .usage
    else
      match options.readFlag argument, rest with
      | .error stop, _ => .error stop
      | .ok (changed, none), others => changed.read others
      | .ok (_, some _), [] => .error .usage
      | .ok (changed, some setting), value :: others =>
        if isFlag value then .error .usage
        else (changed.assign setting value).bind fun complete => complete.read others
termination_by arguments => arguments.length
decreasing_by
  · exact Nat.lt_succ_self _
  · simp only [List.length_cons]
    omega

/-- Reads the arguments of a command line.  The password may come from elsewhere if the
arguments do not give one. -/
def ofArguments (password : Option String) (arguments : List String) : Except Stop Options :=
  (({} : Options).read (normalize arguments)).map fun options =>
    { options with password := options.password.or password }

end Options

end ByteListing.CommandLine
