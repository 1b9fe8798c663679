import ByteListing.Dex.Reading
import ByteListing.Proofs.Bytes.Chunks
import ByteListing.Proofs.Dex.Mutf8

/-! # What stands at a position

`Holds data position piece` says where a piece of a container stands.  What a container holds it
holds in parts as well (`Holds.front`, `Holds.behind`), and an entry of a table where its index
says (`Holds.entry`).  Every number, text or sequence of units is read back from where it
stands. -/
set_option autoImplicit false
namespace ByteListing.Dex

open ByteListing.Bytes (littleOctets length_littleOctets littleEndian_littleOctets)

theorem length_flatMap_of_sizes {Item : Type} {write : Item → Bytes} {size : Nat}
    (sizes : ∀ item, (write item).length = size) (items : List Item) :
    (items.flatMap write).length = items.length * size := by
  induction items with
  | nil => exact (Nat.zero_mul size).symm
  | cons item rest inductionHypothesis =>
      rw [List.flatMap_cons, List.length_append, sizes, inductionHypothesis, List.length_cons,
        Nat.add_mul, Nat.one_mul, Nat.add_comm]

def Holds (data : Bytes) (position : Nat) (piece : Bytes) : Prop :=
  ∃ front back, data = front ++ (piece ++ back) ∧ front.length = position

namespace Holds

variable {data piece first second : Bytes} {position : Nat}

theorem whole (data : Bytes) : Holds data 0 data := ⟨[], [], (List.append_nil data).symm, rfl⟩

theorem front (held : Holds data position (first ++ second)) : Holds data position first := by
  obtain ⟨before, back, rfl, rfl⟩ := held
  exact ⟨before, second ++ back, by rw [List.append_assoc], rfl⟩

theorem behind (held : Holds data position (first ++ second)) :
    Holds data (position + first.length) second := by
  obtain ⟨before, back, rfl, rfl⟩ := held
  refine ⟨before ++ first, back, ?_, List.length_append⟩
  rw [List.append_assoc, List.append_assoc]

theorem bound (held : Holds data position piece) : position + piece.length ≤ data.length := by
  obtain ⟨before, back, rfl, rfl⟩ := held
  simp only [List.length_append]
  omega

theorem drop (held : Holds data position piece) : ∃ back, data.drop position = piece ++ back := by
  obtain ⟨before, back, rfl, rfl⟩ := held
  exact ⟨back, List.drop_left⟩

theorem behind_octets {count value : Nat}
    (held : Holds data position (littleOctets count value ++ second)) :
    Holds data (position + count) second := by
  have later := held.behind
  rwa [length_littleOctets] at later

theorem entry {Item : Type} {write : Item → Bytes} {size : Nat}
    (sizes : ∀ item, (write item).length = size) {items : List Item} {index : Nat} {item : Item}
    (held : Holds data position (items.flatMap write)) (found : items[index]? = some item) :
    Holds data (position + index * size) (write item) := by
  induction items generalizing position index with
  | nil => cases found
  | cons other others inductionHypothesis =>
      rw [List.flatMap_cons] at held
      cases index with
      | zero =>
          cases found
          rw [Nat.zero_mul]
          exact held.front
      | succ index =>
          have later := inductionHypothesis held.behind found
          rw [sizes] at later
          have place : position + size + index * size = position + (index + 1) * size := by
            rw [Nat.add_mul]
            omega
          rwa [place] at later

end Holds

/-! ## Reading -/

theorem take_of_holds {data octets : Bytes} {position length : Nat}
    (held : Holds data position octets) (size : octets.length = length) (piece : Piece) :
    take data piece length position = .ok octets := by
  obtain ⟨back, behind⟩ := held.drop
  have bound := held.bound
  rw [size] at bound
  rw [take, Bytes.slice?, if_pos bound, behind, ← size, List.take_left]

theorem half_of_holds {data : Bytes} {position value : Nat}
    (held : Holds data position (littleOctets 2 value)) (small : value < 2 ^ 16) :
    half data position = .ok value := by
  rw [half, take_of_holds held (length_littleOctets 2 value)]
  have read : Bytes.littleEndian (littleOctets 2 value) = value := littleEndian_littleOctets small
  exact congrArg Except.ok read

theorem word32_of_holds {data : Bytes} {position value : Nat}
    (held : Holds data position (littleOctets 4 value)) (small : value < 2 ^ 32) :
    word32 data position = .ok value := by
  rw [word32, take_of_holds held (length_littleOctets 4 value)]
  have read : Bytes.littleEndian (littleOctets 4 value) = value := littleEndian_littleOctets small
  exact congrArg Except.ok read

theorem varint_of_terminated {data octets : Bytes} {position : Nat}
    (held : Holds data position octets) (terminated : Base128.Terminated octets)
    (few : octets.length ≤ 5) : varint data position =
      .ok (Base128.leastFirst octets % 2 ^ 32, position + octets.length) := by
  obtain ⟨back, behind⟩ := held.drop
  have window : (data.drop position).take 5 = octets ++ back.take (5 - octets.length) := by
    rw [behind, List.take_append, List.take_of_length_le few]
  have split := Base128.splitGroups_append terminated few (back.take (5 - octets.length))
  simp only [varint, window, split]
  rfl

theorem varint_of_holds {data : Bytes} {position value : Nat}
    (held : Holds data position (Base128.groups value)) (small : value < 2 ^ 32) :
    varint data position = .ok (value, position + (Base128.groups value).length) := by
  have few : (Base128.groups value).length ≤ 5 :=
    Base128.length_groups_le (by decide) (Nat.lt_trans small (by decide))
  rw [varint_of_terminated held (Base128.terminated_groups value) few, Base128.leastFirst_groups,
    Nat.mod_eq_of_lt small]

theorem takeWhile_text (text : String) (back : Bytes) :
    (Mutf8.encode text.toList ++ 0 :: back).takeWhile (· ≠ 0) = Mutf8.encode text.toList := by
  have noZero : ∀ byte ∈ Mutf8.encode text.toList, decide (byte ≠ 0) = true := by
    intro byte member
    refine decide_eq_true fun zero => ?_
    subst zero
    exact Mutf8.zero_not_mem_encode _ member
  rw [List.takeWhile_append_of_pos noZero, List.takeWhile_cons_of_neg (by decide),
    List.append_nil]

/-- A text is read back from its octets and the zero behind them, and nothing else is taken. -/
theorem terminatedText_of_holds {data : Bytes} {position : Nat} {text : String}
    (held : Holds data position (Mutf8.encode text.toList ++ [0])) :
    terminatedText data position =
      .ok (text, position + (Mutf8.encode text.toList).length + 1) := by
  obtain ⟨back, behind⟩ := held.drop
  rw [List.append_assoc, List.singleton_append] at behind
  have ended : (Mutf8.encode text.toList).length < (data.drop position).length := by
    rw [behind, List.length_append, List.length_cons]
    omega
  rw [terminatedText, behind, takeWhile_text]
  rw [behind] at ended
  rw [if_pos ended, Mutf8.decode_encode, String.ofList_toList]

theorem textAt_of_holds {data : Bytes} {position : Nat} {text : String}
    (held : Holds data position (Mutf8.encode text.toList ++ [0])) :
    textAt data position = .ok text := by
  rw [textAt, terminatedText_of_holds held]
  rfl

def unitOctets (units : List UInt16) : Bytes := units.flatMap fun unit => littleOctets 2 unit.toNat

theorem length_unitOctets (units : List UInt16) : (unitOctets units).length = 2 * units.length := by
  have sizes (unit : UInt16) : (littleOctets 2 unit.toNat).length = 2 := length_littleOctets 2 _
  rw [unitOctets, length_flatMap_of_sizes sizes, Nat.mul_comm]

theorem unitsAt_of_holds {data : Bytes} {position : Nat} {units : List UInt16}
    (held : Holds data position (unitOctets units)) :
    unitsAt data units.length position = .ok units := by
  have sizes (unit : UInt16) : (littleOctets 2 unit.toNat).length = 2 := length_littleOctets 2 _
  have pieces : Bytes.chunks 2 (unitOctets units) =
      units.map fun unit => littleOctets 2 unit.toNat :=
    Bytes.chunks_flatMap (by decide) sizes units
  have read (unit : UInt16) :
      UInt16.ofNat (Bytes.littleEndian (littleOctets 2 unit.toNat)) = unit := by
    have small : unit.toNat < 256 ^ 2 := unit.toNat_lt
    rw [littleEndian_littleOctets small, UInt16.ofNat_toNat]
  rw [unitsAt, take_of_holds held (length_unitOctets units)]
  simp only [Except.map, pieces, List.map_map, Function.comp_def, read, List.map_id']

end ByteListing.Dex
