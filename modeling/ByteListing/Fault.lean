import ByteListing.Text.Hex

/-! # Faults

Everything that can go wrong, as one type of causes.  `Fault.kind` sorts the causes into the
four groups that callers tell apart, and `Fault.message` is the only place that words them. -/
set_option autoImplicit false
namespace ByteListing

inductive FaultKind where
  | argument
  | notFound
  | decode
  | file
deriving Repr, DecidableEq

namespace FaultKind

def name : FaultKind → String
  | argument => "ArgumentError"
  | notFound => "NotFound"
  | decode => "DecodeError"
  | file => "IOError"

end FaultKind

inductive Fault where
  | fileRead (path cause : String)
  | fileWrite (path cause : String)
  | invalidArgument (operation details : String)
  | handleNotFound (handle : Nat)
  | classNotFound (name : String)
  | methodNotFound (className methodName : String)
  | malformedContainer (offset : Nat) (details : String)
  | malformedField (offset : Nat) (details : String)
  | malformedVarint (offset : Nat)
  | emptySchema
  | emptyMessageName
  | malformedSchema (details : String)
  | messageNotFound (name : String)
  | notAMessage (name found : String)
  | invalidHex (details : String)
  | noPemBlock
  | noPemBlocks
  | decryption (details : String)
  | passwordWithoutPem
deriving Repr, DecidableEq

namespace Fault

def kind : Fault → FaultKind
  | fileRead .. | fileWrite .. => .file
  | invalidArgument .. | passwordWithoutPem => .argument
  | handleNotFound .. | classNotFound .. | methodNotFound .. => .notFound
  | malformedContainer .. | malformedField .. | malformedVarint .. | emptySchema
  | emptyMessageName | malformedSchema .. | messageNotFound .. | notAMessage ..
  | invalidHex .. | noPemBlock | noPemBlocks | decryption .. => .decode

def message : Fault → String
  | fileRead path cause => "failed to read file '" ++ path ++ "': " ++ cause
  | fileWrite path cause => "failed to write file '" ++ path ++ "': " ++ cause
  | invalidArgument operation details => operation ++ ": " ++ details
  | handleNotFound handle => "no blob registered under handle " ++ toString handle
  | classNotFound name => "class '" ++ name ++ "' not found"
  | methodNotFound className methodName =>
    "method '" ++ methodName ++ "' not found in class '" ++ className ++ "'"
  | malformedContainer offset details =>
    "malformed dex container at offset 0x" ++ Hex.natural offset ++ ": " ++ details
  | malformedField offset details =>
    "invalid protobuf wire format at offset " ++ toString offset ++ ": " ++ details
  | malformedVarint offset =>
    "failed to decode varint at offset " ++ toString offset ++
      ": buffer too small or invalid encoding"
  | emptySchema => "message descriptor bytes are empty"
  | emptyMessageName => "message name is empty"
  | malformedSchema details => "failed to parse message descriptor set: " ++ details
  | messageNotFound name => "message '" ++ name ++ "' not found in schema"
  | notAMessage name found =>
    "descriptor for '" ++ name ++ "' is a " ++ found ++ ", not a message descriptor"
  | invalidHex details => "invalid hex input: " ++ details
  | noPemBlock => "input could not be parsed as PEM"
  | noPemBlocks => "input contains no parsable PEM blocks"
  | decryption details => "failed to decrypt PEM block: " ++ details
  | passwordWithoutPem =>
    "a PEM password was provided, but neither single-block nor all-blocks PEM mode is enabled"

/-- A fault as callers outside see it: its group, then its wording. -/
def tagged (fault : Fault) : String := fault.kind.name ++ ": " ++ fault.message

end Fault

end ByteListing
