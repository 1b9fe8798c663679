import ByteListing.Bytes

/-! # MD5

A message is filled up to whole blocks of 64 octets with a single set bit, zeros and its
length.  Every block changes a state of four words in 64 steps; the digest is the last state.
Words are written with their least significant octet first. -/
set_option autoImplicit false
namespace ByteListing.Md5

structure State where
  a : UInt32
  b : UInt32
  c : UInt32
  d : UInt32
deriving Repr, DecidableEq

def start : State := ⟨0x67452301, 0xEFCDAB89, 0x98BADCFE, 0x10325476⟩

/-- The constants of the 64 steps: the integer parts of 2 ^ 32 times the absolute values of the
sines of 1 to 64. -/
def sines : List UInt32 :=
  [0xD76AA478, 0xE8C7B756, 0x242070DB, 0xC1BDCEEE, 0xF57C0FAF, 0x4787C62A,
    0xA8304613, 0xFD469501, 0x698098D8, 0x8B44F7AF, 0xFFFF5BB1, 0x895CD7BE,
    0x6B901122, 0xFD987193, 0xA679438E, 0x49B40821, 0xF61E2562, 0xC040B340,
    0x265E5A51, 0xE9B6C7AA, 0xD62F105D, 0x02441453, 0xD8A1E681, 0xE7D3FBC8,
    0x21E1CDE6, 0xC33707D6, 0xF4D50D87, 0x455A14ED, 0xA9E3E905, 0xFCEFA3F8,
    0x676F02D9, 0x8D2A4C8A, 0xFFFA3942, 0x8771F681, 0x6D9D6122, 0xFDE5380C,
    0xA4BEEA44, 0x4BDECFA9, 0xF6BB4B60, 0xBEBFBC70, 0x289B7EC6, 0xEAA127FA,
    0xD4EF3085, 0x04881D05, 0xD9D4D039, 0xE6DB99E5, 0x1FA27CF8, 0xC4AC5665,
    0xF4292244, 0x432AFF97, 0xAB9423A7, 0xFC93A039, 0x655B59C3, 0x8F0CCC92,
    0xFFEFF47D, 0x85845DD1, 0x6FA87E4F, 0xFE2CE6E0, 0xA3014314, 0x4E0811A1,
    0xF7537E82, 0xBD3AF235, 0x2AD7D2BB, 0xEB86D391]

/-- How far the 64 steps rotate: four amounts in turn, which change every sixteen steps. -/
def rotations : List UInt32 :=
  [[7, 12, 17, 22], [5, 9, 14, 20], [4, 11, 16, 23], [6, 10, 15, 21]].flatMap fun amounts =>
    (List.replicate 4 amounts).flatten

def rotate (word amount : UInt32) : UInt32 := word <<< amount ||| word >>> (32 - amount)

def mix (step : Nat) (b c d : UInt32) : UInt32 × Nat :=
  if step < 16 then (b &&& c ||| ~~~b &&& d, step)
  else if step < 32 then (d &&& b ||| ~~~d &&& c, (5 * step + 1) % 16)
  else if step < 48 then (b ^^^ c ^^^ d, (3 * step + 5) % 16)
  else (c ^^^ (b ||| ~~~d), 7 * step % 16)

def advance (block : Array UInt32) (state : State) (step : Nat × UInt32 × UInt32) : State :=
  let (number, constant, amount) := step
  let (mixed, index) := mix number state.b state.c state.d
  let sum := state.a + mixed + constant + block.getD index 0
  ⟨state.d, state.b + rotate sum amount, state.b, state.c⟩

def steps : List (Nat × UInt32 × UInt32) := (List.range 64).zip (sines.zip rotations)

def compress (state : State) (block : Bytes) : State :=
  let words := (block.chunks 4).map fun word => UInt32.ofNat word.littleEndian
  let changed := steps.foldl (advance words.toArray) state
  ⟨state.a + changed.a, state.b + changed.b, state.c + changed.c, state.d + changed.d⟩

def octets (count value : Nat) : Bytes :=
  (List.range count).map fun index => UInt8.ofNat (value / Nat.pow 256 index)

def fill (message : Bytes) : Bytes :=
  message ++ 0x80 :: List.replicate ((119 - message.length % 64) % 64) 0 ++
    octets 8 (8 * message.length)

def State.toBytes (state : State) : Bytes :=
  octets 4 state.a.toNat ++ octets 4 state.b.toNat ++ octets 4 state.c.toNat ++
    octets 4 state.d.toNat

def digest (message : Bytes) : Bytes := (((fill message).chunks 64).foldl compress start).toBytes

theorem length_digest (message : Bytes) : (digest message).length = 16 := by
  simp [digest, State.toBytes, octets]

end ByteListing.Md5
