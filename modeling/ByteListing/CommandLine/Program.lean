import ByteListing.CommandLine.Arguments
import ByteListing.Der.Request

/-! # The program

The program reads its input, lists what is in it and writes each listing before the next one
is made, so that what was written stays written if a later listing fails.  The output file is
only created once it is known what to list.

What surrounds the program is a record of operations in any monad. -/
set_option autoImplicit false
namespace ByteListing.CommandLine

/-- What surrounds the program.  An operation that fails gives the reason in words. -/
structure System (m : Type → Type) where
  readInput : m (Except String Bytes)
  load : String → m (Except String Bytes)
  create : String → m (Except String Unit)
  write : Option String → String → m (Except String Unit)
  report : String → m Unit

/-- Why the program fails: what happened, and what caused it, the last cause last. -/
structure Failure where
  message : String
  causes : List String := []
deriving Repr, DecidableEq

namespace Failure

def causeText (number : Option Nat) (cause : String) : String :=
  let (lead, further) :=
    match number with
    | none => ("    ", "    ")
    | some index => ("    " ++ toString index ++ ": ", "       ")
  let indented := cause.toList.flatMap fun c => if c = '\n' then c :: further.toList else [c]
  lead ++ String.ofList indented

def causesText : List String → String
  | [] => ""
  | [cause] => "\n\nCaused by:\n" ++ causeText none cause
  | causes =>
    "\n\nCaused by:\n" ++
      "\n".intercalate (causes.mapIdx fun index cause => causeText (some index) cause)

def text (failure : Failure) : String :=
  "Error: " ++ failure.message ++ causesText failure.causes ++ "\n"

def ofFault (options : Options) : Fault → Failure
  | .passwordWithoutPem =>
    ⟨"-pem-password provided, but neither -pem nor -pem-all provided", []⟩
  | .noPemBlock => ⟨"-pem provided, but input could not be parsed as PEM", []⟩
  | .noPemBlocks => ⟨"-pem-all provided, but input could not be parsed as PEM", []⟩
  | .decryption details => ⟨"Error decrypting PEM block: " ++ details, []⟩
  | .invalidHex details =>
    if options.hex then
      ⟨"-hex provided, but input could not be parsed as hex: " ++ details, []⟩
    else
      ⟨(Fault.invalidHex details).message, []⟩
  | fault => ⟨fault.message, []⟩

def opening (path reason : String) (fault : Fault) : Failure :=
  ⟨"Error opening " ++ path, [fault.message, reason]⟩

def writing (output : Option String) (reason : String) : Failure :=
  match output with
  | none => ⟨"Error writing output", [reason]⟩
  | some path => ⟨"Error writing output", [(Fault.fileWrite path reason).message, reason]⟩

end Failure

namespace Options

def request (options : Options) : Der.Request :=
  (((({} : Der.Request).withPem options.pem).withAllPem options.allPem).withHex
    options.hex).withPassword (options.password.getD "")

end Options

section
variable {m : Type → Type} [Monad m]

def readAll (system : System m) (options : Options) : ExceptT Failure m Bytes := do
  match options.input with
  | none =>
    match ← system.readInput with
    | .ok data => return data
    | .error reason => throw ⟨"Error reading input", [reason]⟩
  | some path =>
    match ← system.load path with
    | .ok data => return data
    | .error reason => throw (Failure.opening path reason (.fileRead path reason))

def createOutput (system : System m) (options : Options) : ExceptT Failure m Unit := do
  if let some path := options.output then
    if let .error reason ← system.create path then
      throw (Failure.opening path reason (.fileWrite path reason))

def writeAll (system : System m) (options : Options) : List String → ExceptT Failure m Unit
  | [] => return
  | text :: rest => do
    if let .error reason ← system.write options.output text then
      throw (Failure.writing options.output reason)
    writeAll system options rest

def list (system : System m) (options : Options) : ExceptT Failure m Unit := do
  let input ← readAll system options
  match Der.prepare options.request input with
  | .error fault => throw (Failure.ofFault options fault)
  | .ok sources =>
    createOutput system options
    let (texts, fault) := Der.Source.renderUntil {} 0 sources
    writeAll system options texts
    if let some fault := fault then
      throw (Failure.ofFault options fault)

def usage : String :=
  "Usage: [-i PATH] [-o PATH] [--pem] [--pem-all] [--pem-password PASSWORD] [--hex] [-v]\n"

def run (system : System m) (password : Option String) (arguments : List String) : m UInt32 := do
  match Options.ofArguments password arguments with
  | .error .usage =>
    system.report usage
    return 2
  | .error .help | .error .version =>
    let _ ← system.write none usage
    return 0
  | .ok options =>
    match ← (list system options).run with
    | .ok _ => return 0
    | .error failure =>
      system.report failure.text
      return 1

end

end ByteListing.CommandLine
