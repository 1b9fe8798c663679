import ByteListing.Decimal.Shortest

/-! # The text of floating-point numbers

A binary floating-point number is given by its bits.  It is written in the fewest digits that
read back.  `floatText` writes it positionally and with at least one decimal place from
`10 ^ -4` up to below `10 ^ 16`, and in scientific notation outside that range; `plainText`
always writes it positionally, and a whole number without a point. -/
set_option autoImplicit false
namespace ByteListing.Decimal

structure FloatFormat where
  fractionBits : Nat
  exponentBits : Nat

namespace FloatFormat

def single : FloatFormat := ⟨23, 8⟩

def double : FloatFormat := ⟨52, 11⟩

end FloatFormat

def scientific (digits : String) (exponent : Int) : String :=
  match digits.toList with
  | [] => ""
  | [first] => String.singleton first ++ "e" ++ toString exponent
  | first :: rest =>
    String.singleton first ++ "." ++ String.ofList rest ++ "e" ++ toString exponent

/-- What a decimal number has before and behind its point, given by its digits and the exponent
of the first of them. -/
def positional (digits : List Char) (exponent : Int) : String × String :=
  match exponent with
  | .negSucc leading => ("0", String.ofList (List.replicate leading '0' ++ digits))
  | .ofNat position =>
    let whole := digits.take (position + 1)
    (String.ofList (whole ++ List.replicate (position + 1 - whole.length) '0'),
      String.ofList (digits.drop (position + 1)))

namespace Number

def leadingExponent (number : Number) : Int :=
  number.exponent + (digitCount number.digits - 1 : Nat)

def plainText (number : Number) : String :=
  let (whole, places) := positional (toString number.digits).toList number.leadingExponent
  if places.isEmpty then whole else whole ++ "." ++ places

def text (number : Number) : String :=
  let digits := toString number.digits
  let exponent := number.leadingExponent
  if -4 ≤ exponent ∧ exponent < 16 then
    let (whole, places) := positional digits.toList exponent
    whole ++ "." ++ (if places.isEmpty then "0" else places)
  else
    scientific digits exponent

end Number

inductive Magnitude where
  | zero
  | finite (number : Binary)
  | infinite
  | notANumber

namespace FloatFormat

def isNegative (format : FloatFormat) (bits : Nat) : Bool :=
  bits / Nat.pow 2 (format.fractionBits + format.exponentBits) % 2 == 1

def magnitude (format : FloatFormat) (bits : Nat) : Magnitude :=
  let fraction := bits % Nat.pow 2 format.fractionBits
  let field := bits / Nat.pow 2 format.fractionBits % Nat.pow 2 format.exponentBits
  let bias : Int := (Nat.pow 2 (format.exponentBits - 1) - 1 + format.fractionBits : Nat)
  if field = Nat.pow 2 format.exponentBits - 1 then
    if fraction = 0 then .infinite else .notANumber
  else if field = 0 then
    if fraction = 0 then .zero else .finite ⟨fraction, 1 - bias, false⟩
  else
    .finite ⟨Nat.pow 2 format.fractionBits + fraction, field - bias, fraction = 0 ∧ 1 < field⟩

/-- The text of the number with the given bits, with a sign unless it is no number. -/
def textWith (zero : String) (finite : Number → String) (format : FloatFormat) (bits : Nat) :
    String :=
  let sign := if format.isNegative bits then "-" else ""
  match format.magnitude bits with
  | .zero => sign ++ zero
  | .finite number => sign ++ finite number.shortest
  | .infinite => sign ++ "inf"
  | .notANumber => "NaN"

end FloatFormat

def floatText (format : FloatFormat) (bits : Nat) : String :=
  format.textWith "0.0" Number.text bits

def plainText (format : FloatFormat) (bits : Nat) : String :=
  format.textWith "0" Number.plainText bits

end ByteListing.Decimal
