/-! # Byte strings

A byte string is a list of octets.  Fixed-width integers are read from it as natural
numbers, in either byte order, and reduced to a signed range only where a value is shown. -/
set_option autoImplicit false
namespace ByteListing

abbrev Bytes := List UInt8

namespace Bytes

def bigEndian (bytes : Bytes) : Nat :=
  bytes.foldl (fun value byte => value * 256 + byte.toNat) 0

def littleEndian : Bytes → Nat
  | [] => 0
  | byte :: rest => byte.toNat + 256 * littleEndian rest

def slice? (data : Bytes) (start length : Nat) : Option Bytes :=
  if start + length ≤ data.length then some ((data.drop start).take length) else none

theorem length_drop_lt {data : Bytes} {count : Nat}
    (bounds : 0 < count ∧ count ≤ data.length) : (data.drop count).length < data.length := by
  rw [List.length_drop]
  omega

theorem bounds_append {front : Bytes} (occupied : 0 < front.length) (rest : Bytes) :
    0 < front.length ∧ front.length ≤ (front ++ rest).length := by
  rw [List.length_append]
  omega

theorem isEmpty_append {front : Bytes} (occupied : 0 < front.length) (rest : Bytes) :
    (front ++ rest).isEmpty = false := by
  rw [List.isEmpty_eq_false_iff]
  exact List.append_ne_nil_of_left_ne_nil (List.length_pos_iff.mp occupied) rest

/-- Cuts a byte string into pieces of `size` octets; a shorter remainder is dropped. -/
def chunks (size : Nat) (data : Bytes) : List Bytes :=
  if _ : 0 < size ∧ size ≤ data.length then
    data.take size :: chunks size (data.drop size)
  else
    []
termination_by data.length
decreasing_by exact length_drop_lt ‹_›

end Bytes

/-- Reads the low `width` bits of a natural number as a two's complement integer. -/
def signed (width value : Nat) : Int := Int.bmod (value : Int) (Nat.pow 2 width)

end ByteListing
