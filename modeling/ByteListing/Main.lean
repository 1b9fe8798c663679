import ByteListing.CommandLine.Program

/-! # The command line

The program in the surroundings of a process: its files, its streams and its environment. -/
set_option autoImplicit false

namespace ByteListing.CommandLine

def causeOf : IO.Error → String × UInt32
  | .alreadyExists _ code details | .inappropriateType _ code details
  | .interrupted _ code details | .invalidArgument _ code details
  | .noFileOrDirectory _ code details | .noSuchThing _ code details
  | .permissionDenied _ code details | .resourceExhausted _ code details
  | .hardwareFault code details | .illegalOperation code details
  | .otherError code details | .protocolError code details | .resourceBusy code details
  | .resourceVanished code details | .timeExpired code details
  | .unsatisfiedConstraints code details | .unsupportedOperation code details =>
    (details, code)
  | .unexpectedEof => ("unexpected end of file", 0)
  | .userError details => (details, 0)

def reasonOf (error : IO.Error) : String :=
  let (details, code) := causeOf error
  details ++ " (os error " ++ toString code ++ ")"

def attempt {Result : Type} (operation : IO Result) : IO (Except String Result) := do
  match ← operation.toBaseIO with
  | .ok result => return .ok result
  | .error error => return .error (reasonOf error)

def writeText (output : Option String) (text : String) : IO Unit := do
  match output with
  | none =>
    let stream ← IO.getStdout
    stream.putStr text
    stream.flush
  | some path =>
    let handle ← IO.FS.Handle.mk path .append
    handle.putStr text
    handle.flush

/-- Reads a stream to its end, behind what was read already. -/
partial def readToEnd (stream : IO.FS.Stream) (earlier : ByteArray) : IO ByteArray := do
  let next ← stream.read 65536
  if next.isEmpty then
    return earlier
  readToEnd stream (earlier ++ next)

def process : System IO where
  readInput := attempt do
    return (← readToEnd (← IO.getStdin) .empty).data.toList
  load path := attempt do
    return (← IO.FS.readBinFile path).data.toList
  create path := attempt do
    let _ ← IO.FS.Handle.mk path .write
  write output text := attempt (writeText output text)
  report text := IO.eprint text

end ByteListing.CommandLine

open ByteListing.CommandLine

def main (arguments : List String) : IO UInt32 := do
  run process (← IO.getEnv "BINLENS_PEM_PASSWORD") arguments
