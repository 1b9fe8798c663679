import ByteListing.Der.Listing
import ByteListing.Pem.Encryption
import ByteListing.Text.HexDump

/-! # Requests for listings of elements

A request says how the elements are wrapped up in the input: as they are, in hexadecimal text,
in the first PEM block, or in all of them, and under which password.  PEM takes precedence over
hexadecimal text.  Blocks are decrypted one by one, only when they are listed. -/
set_option autoImplicit false
namespace ByteListing.Der

inductive PemMode where
  | off
  | first
  | all
deriving Repr, DecidableEq

structure Request where
  pem : PemMode := .off
  password : Option String := none
  hex : Bool := false
deriving Repr, DecidableEq

namespace Request

/-- Asks for the first PEM block, unless all are asked for. -/
def withPem (request : Request) (enabled : Bool) : Request :=
  if enabled ∧ request.pem = .off then { request with pem := .first } else request

def withAllPem (request : Request) (enabled : Bool) : Request :=
  if enabled then { request with pem := .all } else request

def withHex (request : Request) (enabled : Bool) : Request := { request with hex := enabled }

/-- Sets the password.  An empty one counts as none. -/
def withPassword (request : Request) (password : String) : Request :=
  { request with password := if password.isEmpty then none else some password }

end Request

inductive Source where
  | octets (data : Bytes)
  | block (block : Pem.Block) (password : Option String) (labelled : Bool)
deriving Repr, DecidableEq

namespace Source

def comment? : Source → Option String
  | octets _ => none
  | block content _ labelled => if labelled then some content.label else none

def bytes : Source → Except Fault Bytes
  | octets data => .ok data
  | block content none _ => .ok content.contents
  | block content (some password) _ =>
    match Pem.decrypt content (Utf8.encode password.toList) with
    | .ok data => .ok data
    | .error flaw => .error (.decryption flaw.describe)

/-- The text above the listing of the source with a given index: an empty line that sets it
apart from the one before it, and its comment. -/
def heading (index : Nat) (source : Source) : String :=
  match source.comment? with
  | none => ""
  | some comment => (if 0 < index then "\n" else "") ++ "# " ++ comment ++ "\n"

def render (layout : Layout) (index : Nat) (source : Source) : Except Fault String :=
  source.bytes.map fun data => source.heading index ++ Der.render layout data

/-- The listings of sources in order, up to the first that cannot be listed, and why that
one cannot. -/
def renderUntil (layout : Layout) : (index : Nat) → List Source → List String × Option Fault
  | _, [] => ([], none)
  | index, source :: rest =>
    match source.render layout index with
    | .error fault => ([], some fault)
    | .ok text =>
      let others := renderUntil layout (index + 1) rest
      (text :: others.1, others.2)

end Source

def prepare (request : Request) (input : Bytes) : Except Fault (List Source) :=
  match request.pem, request.password with
  | .off, some _ => .error .passwordWithoutPem
  | .off, none =>
    if request.hex then
      (HexDump.orFault (HexDump.decode input)).map fun data => [.octets data]
    else
      .ok [.octets input]
  | .first, password =>
    match Pem.first? input with
    | none => .error .noPemBlock
    | some (block, _) => .ok [.block block password false]
  | .all, password =>
    match Pem.all input with
    | [] => .error .noPemBlocks
    | blocks => .ok (blocks.map fun block => .block block password true)

def renderRequest (layout : Layout) (request : Request) (input : Bytes) : Except Fault String :=
  (prepare request input).bind fun sources =>
    match Source.renderUntil layout 0 sources with
    | (texts, none) => .ok (String.join texts)
    | (_, some fault) => .error fault

end ByteListing.Der
