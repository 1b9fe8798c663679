import ByteListing.Bytes

/-! # UTF-8

A byte string is cut, from the left, into encoded characters and ill-formed pieces.  An
ill-formed piece is the longest beginning of some encoded character that the input goes on
with differently, or a single octet that begins none.  Strict decoding wants no such piece;
lossy decoding shows each as one replacement character. -/
set_option autoImplicit false
namespace ByteListing.Utf8

def replacement : Char := '\uFFFD'

/-- What the first octet of an encoded character announces: its own payload bits, how many
octets follow, and the range that the next one must lie in, which excludes overlong forms,
surrogates and values past the last code point. -/
structure Lead where
  payload : Nat
  following : Nat
  low : UInt8
  high : UInt8

def lead? (byte : UInt8) : Option Lead :=
  if byte < 0x80 then some ⟨byte.toNat, 0, 0x80, 0xBF⟩
  else if byte < 0xC2 then none
  else if byte < 0xE0 then some ⟨byte.toNat % 32, 1, 0x80, 0xBF⟩
  else if byte = 0xE0 then some ⟨0, 2, 0xA0, 0xBF⟩
  else if byte = 0xED then some ⟨13, 2, 0x80, 0x9F⟩
  else if byte < 0xF0 then some ⟨byte.toNat % 16, 2, 0x80, 0xBF⟩
  else if byte = 0xF0 then some ⟨0, 3, 0x90, 0xBF⟩
  else if byte < 0xF4 then some ⟨byte.toNat % 8, 3, 0x80, 0xBF⟩
  else if byte = 0xF4 then some ⟨4, 3, 0x80, 0x8F⟩
  else none

/-- Reads the octets that follow a first one: the character, or nothing where the encoding
breaks off, and the input from there. -/
def follow : (following : Nat) → (low high : UInt8) → (value : Nat) → Bytes → Option Char × Bytes
  | 0, _, _, value, rest => (some (Char.ofNat value), rest)
  | _ + 1, _, _, _, [] => (none, [])
  | following + 1, low, high, value, byte :: rest =>
    if low ≤ byte ∧ byte ≤ high then
      follow following 0x80 0xBF (value * 64 + byte.toNat % 64) rest
    else
      (none, byte :: rest)

theorem length_follow_le (following : Nat) (low high : UInt8) (value : Nat) (rest : Bytes) :
    (follow following low high value rest).2.length ≤ rest.length := by
  induction following generalizing low high value rest with
  | zero => simp [follow]
  | succ following inductionHypothesis =>
      cases rest with
      | nil => simp [follow]
      | cons byte rest =>
          simp only [follow]
          split
          · exact Nat.le_succ_of_le (inductionHypothesis ..)
          · simp

/-- The characters of a byte string in order, with `none` for each ill-formed piece. -/
def pieces : Bytes → List (Option Char)
  | [] => []
  | byte :: rest =>
    match lead? byte with
    | none => none :: pieces rest
    | some lead =>
      let followed := follow lead.following lead.low lead.high lead.payload rest
      followed.1 :: pieces followed.2
termination_by data => data.length
decreasing_by
  · simp
  · exact Nat.lt_succ_of_le (length_follow_le ..)

def decode? (data : Bytes) : Option (List Char) := (pieces data).mapM id

def decodeLossy (data : Bytes) : List Char := (pieces data).map (·.getD replacement)

def encode (text : List Char) : Bytes := text.flatMap String.utf8EncodeChar

end ByteListing.Utf8
