import ByteListing.Bytes.Base128
import ByteListing.Fault

/-! # Varints

A varint is a number in base 128, least significant group first, in at most ten octets.  Its
value is taken modulo `2 ^ 64`.  Signed numbers are folded into it by zig-zag: the even values
stand for the numbers from zero up, the odd ones for those below zero. -/
set_option autoImplicit false
namespace ByteListing.Wire.Varint

def maxLength : Nat := 10

def decode? (data : Bytes) : Option (Nat × Nat) :=
  (Base128.splitGroups maxLength data).map fun (groups, _) =>
    (Base128.leastFirst groups % Nat.pow 2 64, groups.length)

/-- Reads a varint; a failure names the position at which it should have ended. -/
def decode (data : Bytes) : Except Fault (Nat × Nat) :=
  match decode? data with
  | some result => .ok result
  | none => .error (.malformedVarint (min maxLength data.length))

/-- The signed number that a value stands for under zig-zag. -/
def unfold (value : Nat) : Int :=
  if value % 2 = 0 then (value / 2 : Nat) else -(value / 2 : Nat) - 1

def sequence? (data : Bytes) : Option (List Nat) :=
  if data.isEmpty then
    some []
  else
    match decode? data with
    | none => none
    | some (value, length) =>
      if _ : 0 < length ∧ length ≤ data.length then
        (sequence? (data.drop length)).map (value :: ·)
      else
        none
termination_by data.length
decreasing_by exact Bytes.length_drop_lt ‹_›

end ByteListing.Wire.Varint
