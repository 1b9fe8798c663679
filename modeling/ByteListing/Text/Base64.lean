import ByteListing.Bytes

/-! # Base 64

Four characters stand for three octets, six bits each.  A last group of one or two octets is
filled up with equals signs, and the bits that no octet needs are zero, so that a byte string
is written in one way only. -/
set_option autoImplicit false
namespace ByteListing.Base64

def value? (c : UInt8) : Option Nat :=
  if 0x41 ≤ c ∧ c ≤ 0x5A then some (c.toNat - 0x41)
  else if 0x61 ≤ c ∧ c ≤ 0x7A then some (c.toNat - 0x61 + 26)
  else if 0x30 ≤ c ∧ c ≤ 0x39 then some (c.toNat - 0x30 + 52)
  else if c = 0x2B then some 62
  else if c = 0x2F then some 63
  else none

def filler : UInt8 := 0x3D

def octets (count value : Nat) : Bytes :=
  [UInt8.ofNat (value / 65536), UInt8.ofNat (value / 256), UInt8.ofNat value].take count

def lastGroup? (first second third fourth : UInt8) : Option Bytes := do
  let a ← value? first
  let b ← value? second
  if third = filler ∧ fourth = filler then
    if b % 16 = 0 then some (octets 1 (a * 262144 + b * 4096)) else none
  else
    let c ← value? third
    if fourth = filler then
      if c % 4 = 0 then some (octets 2 (a * 262144 + b * 4096 + c * 64)) else none
    else
      let d ← value? fourth
      some (octets 3 (a * 262144 + b * 4096 + c * 64 + d))

def group? (first second third fourth : UInt8) : Option Bytes := do
  let a ← value? first
  let b ← value? second
  let c ← value? third
  let d ← value? fourth
  some (octets 3 (a * 262144 + b * 4096 + c * 64 + d))

def decode? : Bytes → Option Bytes
  | [] => some []
  | [first, second, third, fourth] => lastGroup? first second third fourth
  | first :: second :: third :: fourth :: rest => do
    let octets ← group? first second third fourth
    let others ← decode? rest
    some (octets ++ others)
  | _ => none

end ByteListing.Base64
