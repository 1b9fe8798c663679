import ByteListing.Bytes

/-! # Hexadecimal text

Octets are written as two lowercase digits each.  Reading takes digits of either case and
nothing else; what is wrong with a text is its first character that is no digit or, if there
is none, an odd number of digits. -/
set_option autoImplicit false
namespace ByteListing.Hex

def digit (value : Nat) : Char :=
  if value < 10 then Char.ofNat (48 + value) else Char.ofNat (87 + value)

def octet (byte : UInt8) : List Char := [digit (byte.toNat / 16), digit (byte.toNat % 16)]

def digits (data : Bytes) : List Char := data.flatMap octet

def text (data : Bytes) : String := String.ofList (digits data)

def literal (data : Bytes) : String := "`" ++ text data ++ "`"

def natural (value : Nat) : String := String.ofList (Nat.toDigits 16 value)

/-- A natural number in at least `width` digits. -/
def padded (width value : Nat) : String :=
  let digits := Nat.toDigits 16 value
  String.ofList (List.replicate (width - digits.length) '0' ++ digits)

def value? (c : Char) : Option Nat :=
  if '0' ≤ c ∧ c ≤ '9' then some (c.toNat - 48)
  else if 'a' ≤ c ∧ c ≤ 'f' then some (c.toNat - 87)
  else if 'A' ≤ c ∧ c ≤ 'F' then some (c.toNat - 55)
  else none

inductive Flaw where
  | invalidCharacter (character : Char) (position : Nat)
  | oddLength
deriving Repr, DecidableEq

/-- The first character that is no digit, and how many octets of UTF-8 stand before it. -/
def firstInvalid (position : Nat) : List Char → Option (Char × Nat)
  | [] => none
  | c :: rest =>
    if (value? c).isSome then firstInvalid (position + c.utf8Size) rest else some (c, position)

def pairs : List Char → Bytes
  | high :: low :: rest =>
    UInt8.ofNat (16 * (value? high).getD 0 + (value? low).getD 0) :: pairs rest
  | _ => []

def decode (input : List Char) : Except Flaw Bytes :=
  match firstInvalid 0 input with
  | some (character, position) => .error (.invalidCharacter character position)
  | none => if input.length % 2 = 0 then .ok (pairs input) else .error .oddLength

end ByteListing.Hex
