import Mathlib.Data.List.Chain
import ByteListing.Proofs.Dex.Assembly

/-! # Reading fields back

What the reader finds in the units of an assembled instruction.  Fields that were packed into
a unit come out again by division (`octet_of_unit`, `nibbles_of_unit`, `nibbles_of_list`), long
fields come out of several units (`word_pieces`), and `operands_units` puts this together for
all formats.  The section on the table holds the facts about assigned opcodes that reading
relies on. -/
set_option autoImplicit false
namespace ByteListing.Dex

/-! ## Fields in units -/

section Fields

theorem toNat_append {high low : Nat} (upper : BitVec high) (lower : BitVec low) :
    (upper ++ lower).toNat = upper.toNat <<< low + lower.toNat := by
  rw [BitVec.toNat_append, ← Nat.shiftLeft_add_eq_or_of_lt lower.isLt]

theorem signed_toNat {width : Nat} (value : BitVec width) :
    signed width value.toNat = value.toInt := by
  rw [signed, BitVec.toInt_eq_toNat_bmod]
  rfl

theorem toNat_piece {width : Nat} (value : BitVec width) (index : Nat) :
    (piece value index).toNat = value.toNat >>> (16 * index) % 65536 := by
  rw [piece, BitVec.extractLsb'_toNat]

theorem word_pieces (value : BitVec 32) :
    word (UInt16.ofBitVec (piece value 0)) (UInt16.ofBitVec (piece value 1)) = value.toNat := by
  have bound := value.isLt
  have lower := toNat_piece value 0
  have upper := toNat_piece value 1
  simp only [word, UInt16.toNat_ofBitVec] at *
  omega

theorem word_pieces_wide (value : BitVec 64) :
    word (UInt16.ofBitVec (piece value 0)) (UInt16.ofBitVec (piece value 1)) +
      Nat.pow 2 32 * word (UInt16.ofBitVec (piece value 2)) (UInt16.ofBitVec (piece value 3)) =
      value.toNat := by
  have bound := value.isLt
  have first := toNat_piece value 0
  have second := toNat_piece value 1
  have third := toNat_piece value 2
  have fourth := toNat_piece value 3
  have wide : Nat.pow 2 32 = 4294967296 := rfl
  simp only [word, UInt16.toNat_ofBitVec, wide] at *
  omega

theorem octet_of_unit (upper lower : BitVec 8) :
    (upper ++ lower : BitVec 16).toNat % 256 = lower.toNat ∧
      (upper ++ lower : BitVec 16).toNat / 256 = upper.toNat := by
  have bound := lower.isLt
  have value := toNat_append upper lower
  omega

theorem nibbles_of_unit (upper lower : BitVec 4) (opcode : BitVec 8) :
    (upper ++ lower ++ opcode : BitVec 16).toNat % 256 = opcode.toNat ∧
      (upper ++ lower ++ opcode : BitVec 16).toNat / 256 % 16 = lower.toNat ∧
      (upper ++ lower ++ opcode : BitVec 16).toNat / 4096 = upper.toNat := by
  have opcodeBound := opcode.isLt
  have lowerBound := lower.isLt
  have outer := toNat_append (upper ++ lower) opcode
  have inner := toNat_append upper lower
  omega

theorem nibbles_of_list (fourth third second first : BitVec 4) :
    (fourth ++ third ++ second ++ first : BitVec 16).toNat % 16 = first.toNat ∧
      (fourth ++ third ++ second ++ first : BitVec 16).toNat / 16 % 16 = second.toNat ∧
      (fourth ++ third ++ second ++ first : BitVec 16).toNat / 256 % 16 = third.toNat ∧
      (fourth ++ third ++ second ++ first : BitVec 16).toNat / 4096 = fourth.toNat := by
  have firstBound := first.isLt
  have secondBound := second.isLt
  have thirdBound := third.isLt
  have outer := toNat_append (fourth ++ third ++ second) first
  have middle := toNat_append (fourth ++ third) second
  have inner := toNat_append fourth third
  omega

end Fields

/-! ## The table of opcodes -/

section Tables

theorem codes_increase : Opcode.all.Pairwise fun first second => first.code < second.code := by
  have chain : (Opcode.all.map Opcode.code).IsChain (· < ·) := by decide +kernel
  exact List.pairwise_map.mp (List.isChain_iff_pairwise.mp chain)

/-- The facts about assigned opcodes that reading relies on. -/
theorem table_facts : ∀ opcode ∈ Opcode.all, opcode.code < 256 ∧
    (opcode.code = 0 → opcode.format = .f10x) ∧
    (opcode.format = .f21h → (opcode.name == "const-wide/high16") = (opcode.code == 0x19)) := by
  decide +kernel

theorem find?_code {opcodes : List Opcode}
    (increase : opcodes.Pairwise fun first second => first.code < second.code) {opcode : Opcode}
    (member : opcode ∈ opcodes) :
    opcodes.find? (fun other => other.code == opcode.code) = some opcode := by
  induction opcodes with
  | nil => simp at member
  | cons first rest inductionHypothesis =>
      obtain ⟨smaller, restIncrease⟩ := List.pairwise_cons.mp increase
      rcases List.mem_cons.mp member with rfl | later
      · simp
      · have differ : first.code ≠ opcode.code := Nat.ne_of_lt (smaller opcode later)
        rw [List.find?_cons_of_neg (by simpa using differ)]
        exact inductionHypothesis restIncrease later

theorem ofCode?_of_mem {opcode : Opcode} (assigned : opcode ∈ Opcode.all) :
    Opcode.ofCode? opcode.code = some opcode :=
  find?_code codes_increase assigned

end Tables

/-! ## Operands -/

section Operations

variable {format : Format} {reference : Option ReferenceKind}

theorem length_arguments (arguments : Arguments format reference) (opcode unused : BitVec 8) :
    (arguments.units opcode unused).length = format.units := by
  cases arguments <;> rfl

theorem take_registers {registers : List (BitVec 4)} (few : registers.length ≤ 5) :
    [(registers.getD 0 0#4).toNat, (registers.getD 1 0#4).toNat, (registers.getD 2 0#4).toNat,
      (registers.getD 3 0#4).toNat, (registers.getD 4 0#4).toNat].take registers.length =
      registers.map BitVec.toNat := by
  match registers, few with
  | [], _ | [_], _ | [_, _], _ | [_, _, _], _ | [_, _, _, _], _ | [_, _, _, _, _], _ => rfl
  | _ :: _ :: _ :: _ :: _ :: _ :: _, few =>
      simp only [List.length_cons] at few
      omega

theorem registerList_units {registers : List (BitVec 4)} (few : registers.length ≤ 5)
    (opcode : BitVec 8) (index : BitVec 16) (rest : List UInt16) :
    (Window.mk (UInt16.ofBitVec (Arguments.listHead registers opcode) ::
      UInt16.ofBitVec index :: UInt16.ofBitVec (Arguments.listTail registers) ::
        rest)).registerList = .registers (registers.map BitVec.toNat) := by
  obtain ⟨-, fifth, count⟩ :=
    nibbles_of_unit (BitVec.ofNat 4 registers.length) (registers.getD 4 0#4) opcode
  obtain ⟨first, second, third, fourth⟩ := nibbles_of_list (registers.getD 3 0#4)
    (registers.getD 2 0#4) (registers.getD 1 0#4) (registers.getD 0 0#4)
  have countExact : (BitVec.ofNat 4 registers.length).toNat = registers.length := by
    rw [BitVec.toNat_ofNat]
    omega
  rw [countExact] at count
  rw [← take_registers few]
  simp only [Window.registerList, Window.low, Window.high, Window.unit, Arguments.listHead,
    Arguments.listTail, List.getD_cons_zero, List.getD_cons_succ, UInt16.toNat_ofBitVec] at *
  rw [first, second, third, fourth, fifth, count]

/-! The accessors of a window, on the units that fields are packed into. -/

@[simp]
theorem unit_zero (first : BitVec 16) (rest : List UInt16) :
    (Window.mk (UInt16.ofBitVec first :: rest)).unit 0 = first.toNat := rfl

@[simp]
theorem unit_succ (first : UInt16) (rest : List UInt16) (index : Nat) :
    (Window.mk (first :: rest)).unit (index + 1) = (Window.mk rest).unit index := rfl

@[simp]
theorem wide_head (upper lower : BitVec 8) (rest : List UInt16) :
    (Window.mk (UInt16.ofBitVec (upper ++ lower) :: rest)).wide = upper.toNat :=
  (octet_of_unit upper lower).2

@[simp]
theorem low_head (upper lower : BitVec 4) (opcode : BitVec 8) (rest : List UInt16) :
    (Window.mk (UInt16.ofBitVec (upper ++ lower ++ opcode) :: rest)).low = lower.toNat :=
  (nibbles_of_unit upper lower opcode).2.1

@[simp]
theorem high_head (upper lower : BitVec 4) (opcode : BitVec 8) (rest : List UInt16) :
    (Window.mk (UInt16.ofBitVec (upper ++ lower ++ opcode) :: rest)).high = upper.toNat :=
  (nibbles_of_unit upper lower opcode).2.2

@[simp]
theorem signedUnit_one (first : UInt16) (value : BitVec 16) (rest : List UInt16) :
    (Window.mk (first :: UInt16.ofBitVec value :: rest)).signedUnit 1 = value.toInt :=
  signed_toNat value

@[simp]
theorem pair_one (first : UInt16) (value : BitVec 32) (rest : List UInt16) :
    (Window.mk (first :: UInt16.ofBitVec (piece value 0) :: UInt16.ofBitVec (piece value 1) ::
      rest)).pair 1 = value.toNat :=
  word_pieces value

@[simp]
theorem signedPair_one (first : UInt16) (value : BitVec 32) (rest : List UInt16) :
    (Window.mk (first :: UInt16.ofBitVec (piece value 0) :: UInt16.ofBitVec (piece value 1) ::
      rest)).signedPair 1 = value.toInt := by
  rw [Window.signedPair, pair_one, signed_toNat]

@[simp]
theorem signedQuad_one (first : UInt16) (value : BitVec 64) (rest : List UInt16) :
    (Window.mk (first :: UInt16.ofBitVec (piece value 0) :: UInt16.ofBitVec (piece value 1) ::
      UInt16.ofBitVec (piece value 2) :: UInt16.ofBitVec (piece value 3) ::
        rest)).signedQuad 1 = value.toInt := by
  rw [← signed_toNat value, ← word_pieces_wide value]
  rfl

/-- The reader finds in the units of an instruction the operands that were written there. -/
theorem operands_units {opcode : Opcode} (assigned : opcode ∈ Opcode.all)
    (arguments : Arguments format reference) (formatEq : opcode.format = format)
    (referenceEq : opcode.reference = reference) (unused : BitVec 8) :
    (Window.mk ((arguments.units (BitVec.ofNat 8 opcode.code) unused).map
      UInt16.ofBitVec)).operands opcode = arguments.operands (Code.places opcode) := by
  have octets := octet_of_unit
  cases arguments
  case f21h first value =>
      have shifted := (table_facts opcode assigned).2.2 formatEq
      simp [Window.operands, formatEq, Arguments.units, Arguments.operands, Code.places, shifted]
  all_goals
    simp [Window.operands, Arguments.units, Arguments.operands, signed_toNat,
      registerList_units, *]

end Operations

end ByteListing.Dex
