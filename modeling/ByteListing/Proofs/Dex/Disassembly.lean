import ByteListing.Dex.Classes
import ByteListing.Proofs.Dex.Operands

/-! # Reading assembled bodies back

The reader undoes the assembler.  `read?_units` does one instruction, whatever follows it, and
`decodeFrom_assemble` a whole body from any position on.  What is listed of an instruction is what
was written (`operandText_body`).  `decodeCode_assemble` is the statement about listings:
positions, opcodes, mnemonics and operands come back as they were written, for every pool of
constants. -/
set_option autoImplicit false
namespace ByteListing.Dex

/-! ## Instructions -/

section Instructions

theorem leading?_append {taken : List UInt16} {size : Nat} (exact : taken.length = size)
    (rest : List UInt16) : Body.leading? size (taken ++ rest) = some taken := by
  subst exact
  simp [Body.leading?]

theorem signedWords_pieces (values : List (BitVec 32)) :
    signedWords ((values.flatMap pieces).map UInt16.ofBitVec) = values.map BitVec.toInt := by
  induction values with
  | nil => rfl
  | cons value rest inductionHypothesis =>
      have shape : ((value :: rest).flatMap pieces).map UInt16.ofBitVec =
          UInt16.ofBitVec (piece value 0) :: UInt16.ofBitVec (piece value 1) ::
            (rest.flatMap pieces).map UInt16.ofBitVec := rfl
      rw [shape, signedWords, word_pieces, signed_toNat, inductionHypothesis, List.map_cons]

theorem length_flatMap_pieces (values : List (BitVec 32)) :
    (values.flatMap pieces).length = 2 * values.length := by
  induction values with
  | nil => rfl
  | cons value rest inductionHypothesis =>
      simp only [List.flatMap_cons, List.length_append, inductionHypothesis, List.length_cons]
      simp only [pieces, List.length_cons, List.length_nil]
      omega

theorem toNat_count {count : Nat} (countable : count < Nat.pow 2 16) :
    (UInt16.ofBitVec (BitVec.ofNat 16 count)).toNat = count := by
  rw [UInt16.toNat_ofBitVec, BitVec.toNat_ofNat]
  exact Nat.mod_eq_of_lt countable

theorem packedSwitch?_units (firstKey : BitVec 32) {targets : List (BitVec 32)}
    (countable : targets.length < Nat.pow 2 16) (rest : List UInt16) :
    Body.packedSwitch? ((Code.packedSwitch firstKey targets countable).units ++ rest) =
      some ((Code.packedSwitch firstKey targets countable).body,
        (Code.packedSwitch firstKey targets countable).units.length) := by
  have size : (Code.packedSwitch firstKey targets countable).units.length =
      4 + 2 * targets.length := by
    simp only [Code.units, Code.fields, List.length_map, List.length_cons, length_flatMap_pieces]
    omega
  have keys : signedWords ((Code.packedSwitch firstKey targets countable).units.drop 2) =
      firstKey.toInt :: targets.map BitVec.toInt := signedWords_pieces (firstKey :: targets)
  have distances : signedWords ((Code.packedSwitch firstKey targets countable).units.drop 4) =
      targets.map BitVec.toInt := signedWords_pieces targets
  have second : ((Code.packedSwitch firstKey targets countable).units ++ rest)[1]? =
      some (UInt16.ofBitVec (BitVec.ofNat 16 targets.length)) := rfl
  simp only [Body.packedSwitch?, second, Option.bind_eq_bind, Option.bind_some,
    toNat_count countable, leading?_append size, keys, distances, List.head?_cons, size]
  rfl

theorem sparseSwitch?_units {cases : List (BitVec 32 × BitVec 32)}
    (countable : cases.length < Nat.pow 2 16) (rest : List UInt16) :
    Body.sparseSwitch? ((Code.sparseSwitch cases countable).units ++ rest) =
      some ((Code.sparseSwitch cases countable).body,
        (Code.sparseSwitch cases countable).units.length) := by
  have size : (Code.sparseSwitch cases countable).units.length = 2 + 4 * cases.length := by
    simp only [Code.units, Code.fields, List.length_map, List.length_cons, List.length_append,
      length_flatMap_pieces]
    omega
  have values : signedWords ((Code.sparseSwitch cases countable).units.drop 2) =
      cases.map (fun case => case.1.toInt) ++ cases.map (fun case => case.2.toInt) := by
    have together := signedWords_pieces (cases.map Prod.fst ++ cases.map Prod.snd)
    rw [List.map_append, List.map_map, List.map_map] at together
    exact together
  have second : ((Code.sparseSwitch cases countable).units ++ rest)[1]? =
      some (UInt16.ofBitVec (BitVec.ofNat 16 cases.length)) := rfl
  have zipped : (cases.map fun case => case.1.toInt).zip (cases.map fun case => case.2.toInt) =
      cases.map fun case => (case.1.toInt, case.2.toInt) := by
    rw [List.zip_map']
  simp only [Body.sparseSwitch?, second, Option.bind_eq_bind, Option.bind_some,
    toNat_count countable, leading?_append size, values]
  rw [List.take_left' (by simp), List.drop_left' (by simp)]
  rw [zipped, size]
  rfl

theorem length_pairs (padding : UInt8) (data : Bytes) :
    (Code.pairs padding data).length = (data.length + 1) / 2 := by
  fun_induction Code.pairs padding data with
  | case1 low high rest inductionHypothesis =>
      simp only [List.length_cons, inductionHypothesis]
      omega
  | case2 low => simp
  | case3 => rfl

theorem octets_pair (high low : UInt8) :
    Body.octets (UInt16.ofBitVec (high.toBitVec ++ low.toBitVec)) = [low, high] := by
  obtain ⟨lower, upper⟩ := octet_of_unit high.toBitVec low.toBitVec
  simp only [Body.octets, UInt16.toNat_ofBitVec, lower, upper, UInt8.toNat_toBitVec,
    UInt8.ofNat_toNat]

/-- The octets of an array come back from its units; what fills the last unit does not. -/
theorem octets_pairs (padding : UInt8) (data : Bytes) :
    (((Code.pairs padding data).map UInt16.ofBitVec).flatMap Body.octets).take data.length =
      data := by
  fun_induction Code.pairs padding data with
  | case1 low high rest inductionHypothesis =>
      rw [List.map_cons, List.flatMap_cons, octets_pair]
      simp only [List.cons_append, List.nil_append, List.length_cons, List.take_succ_cons,
        inductionHypothesis]
  | case2 low =>
      rw [List.map_cons, List.flatMap_cons, octets_pair]
      rfl
  | case3 => rfl

theorem arrayData?_units (width : BitVec 16) (count : BitVec 32) {data : Bytes}
    (complete : data.length = width.toNat * count.toNat) (padding : UInt8)
    (rest : List UInt16) :
    Body.arrayData? ((Code.arrayData width count data complete padding).units ++ rest) =
      some ((Code.arrayData width count data complete padding).body,
        (Code.arrayData width count data complete padding).units.length) := by
  have size : (Code.arrayData width count data complete padding).units.length =
      4 + (data.length + 1) / 2 := by
    simp only [Code.units, Code.fields, List.length_map, List.length_cons, List.length_append,
      pieces, List.length_nil, length_pairs]
    omega
  have elements : (((Code.arrayData width count data complete padding).units.drop 4).flatMap
      Body.octets).take data.length = data := octets_pairs padding data
  have second : ((Code.arrayData width count data complete padding).units ++ rest)[1]? =
      some (UInt16.ofBitVec width) := rfl
  have third : ((Code.arrayData width count data complete padding).units ++ rest)[2]? =
      some (UInt16.ofBitVec (piece count 0)) := rfl
  have fourth : ((Code.arrayData width count data complete padding).units ++ rest)[3]? =
      some (UInt16.ofBitVec (piece count 1)) := rfl
  simp only [Body.arrayData?, second, third, fourth, Option.bind_eq_bind, Option.bind_some,
    word_pieces, UInt16.toNat_ofBitVec, ← complete, leading?_append size, elements, size]
  rfl

theorem first_unit {format : Format} {reference : Option ReferenceKind}
    (arguments : Arguments format reference) (opcode unused : BitVec 8) :
    ∃ first rest, arguments.units opcode unused = first :: rest ∧
      first.toNat % 256 = opcode.toNat := by
  cases arguments
  case f12x first second => exact ⟨_, _, rfl, (nibbles_of_unit second first opcode).1⟩
  case f11n first value => exact ⟨_, _, rfl, (nibbles_of_unit value first opcode).1⟩
  case f22t first second distance => exact ⟨_, _, rfl, (nibbles_of_unit second first opcode).1⟩
  case f22s first second value => exact ⟨_, _, rfl, (nibbles_of_unit second first opcode).1⟩
  case f22c kind first second index => exact ⟨_, _, rfl, (nibbles_of_unit second first opcode).1⟩
  case f35c kind registers few index => exact ⟨_, _, rfl, (nibbles_of_unit _ _ opcode).1⟩
  case f45cc kind registers few index proto => exact ⟨_, _, rfl, (nibbles_of_unit _ _ opcode).1⟩
  all_goals exact ⟨_, _, rfl, (octet_of_unit _ opcode).1⟩

theorem read?_of_code {first : UInt16} (started : first.toNat % 256 ≠ 0) (rest : List UInt16) :
    Body.read? (first :: rest) = Body.operation? first (first :: rest) := by
  have other : ∀ mark : UInt16, mark.toNat % 256 = 0 → first ≠ mark := by
    intro mark aligned equal
    exact started (equal ▸ aligned)
  rw [Body.read?, if_neg (other 0x0100 rfl), if_neg (other 0x0200 rfl), if_neg (other 0x0300 rfl)]

theorem units_idle {format : Format} {reference : Option ReferenceKind}
    (arguments : Arguments format reference) (formatEq : format = .f10x)
    (opcode unused : BitVec 8) : arguments.units opcode unused = [unused ++ opcode] := by
  cases arguments
  case f10x => rfl
  all_goals cases formatEq

theorem operation?_units {opcode : Opcode} (assigned : opcode ∈ Opcode.all)
    (arguments : Arguments opcode.format opcode.reference) (unused : BitVec 8)
    (first : UInt16) (started : first.toNat % 256 = opcode.code) (rest : List UInt16) :
    Body.operation? first
        ((arguments.units (BitVec.ofNat 8 opcode.code) unused).map UInt16.ofBitVec ++ rest) =
      some (.operation opcode (arguments.operands (Code.places opcode)), opcode.format.units) := by
  have size : ((arguments.units (BitVec.ofNat 8 opcode.code) unused).map
      UInt16.ofBitVec).length = opcode.format.units := by
    rw [List.length_map, length_arguments]
  simp only [Body.operation?, started, ofCode?_of_mem assigned, leading?_append size,
    Option.map_some, operands_units assigned arguments rfl rfl]

theorem toNat_code {opcode : Opcode} (assigned : opcode ∈ Opcode.all) :
    (BitVec.ofNat 8 opcode.code).toNat = opcode.code := by
  rw [BitVec.toNat_ofNat]
  exact Nat.mod_eq_of_lt (table_facts opcode assigned).1

theorem read?_operation {opcode : Opcode} (assigned : opcode ∈ Opcode.all)
    (arguments : Arguments opcode.format opcode.reference) (unused : BitVec 8)
    (idle : opcode.code = 0 → unused = 0) (rest : List UInt16) :
    Body.read?
        ((arguments.units (BitVec.ofNat 8 opcode.code) unused).map UInt16.ofBitVec ++ rest) =
      some (.operation opcode (arguments.operands (Code.places opcode)), opcode.format.units) := by
  obtain ⟨first, others, shape, started⟩ :=
    first_unit arguments (BitVec.ofNat 8 opcode.code) unused
  rw [toNat_code assigned] at started
  have found := operation?_units assigned arguments unused (UInt16.ofBitVec first) started rest
  by_cases zero : opcode.code = 0
  · -- only the opcode that does nothing has this code, and its unit is zero throughout
    have single := units_idle arguments ((table_facts opcode assigned).2.1 zero)
      (BitVec.ofNat 8 opcode.code) unused
    rw [zero, idle zero] at single
    rw [zero, idle zero, single] at shape found ⊢
    cases shape
    exact found
  · rw [shape] at found ⊢
    rw [← started] at zero
    exact (read?_of_code zero _).trans found

theorem read?_unassigned (code : BitVec 8)
    (free : ∀ opcode ∈ Opcode.all, opcode.code ≠ code.toNat) (unused : BitVec 8)
    (rest : List UInt16) :
    Body.read? ((Code.unassigned code free unused).units ++ rest) =
      some (.unassigned code.toNat, 1) := by
  have octets := octet_of_unit unused code
  have nowhere : Opcode.ofCode? code.toNat = none := by
    refine List.find?_eq_none.mpr fun opcode assigned => ?_
    simpa using free opcode assigned
  have layout : (Code.unassigned code free unused).units ++ rest =
      UInt16.ofBitVec (unused ++ code) :: rest := rfl
  have started : (UInt16.ofBitVec (unused ++ code)).toNat % 256 = code.toNat := octets.1
  have nonzero : (UInt16.ofBitVec (unused ++ code)).toNat % 256 ≠ 0 := by
    rw [started]
    exact (free ⟨0, "nop", .f10x, none⟩ (by decide) ·.symm)
  rw [layout, read?_of_code nonzero]
  simp only [Body.operation?, started, nowhere]

/-- The reader takes exactly the units of an instruction, whatever follows them. -/
theorem read?_units (code : Code) (rest : List UInt16) :
    Body.read? (code.units ++ rest) = some (code.body, code.units.length) := by
  cases code with
  | operation opcode assigned arguments unused idle =>
      have size : (Code.operation opcode assigned arguments unused idle).units.length =
          opcode.format.units := by
        rw [Code.units, List.length_map, Code.fields, length_arguments]
      rw [size]
      exact read?_operation assigned arguments unused idle rest
  | unassigned code free unused => exact read?_unassigned code free unused rest
  | packedSwitch firstKey targets countable =>
      have marked (others : List UInt16) :
          Body.read? (0x0100 :: others) = Body.packedSwitch? (0x0100 :: others) := by
        rw [Body.read?, if_pos rfl]
      exact (marked _).trans (packedSwitch?_units firstKey countable rest)
  | sparseSwitch cases countable =>
      have marked (others : List UInt16) :
          Body.read? (0x0200 :: others) = Body.sparseSwitch? (0x0200 :: others) := by
        rw [Body.read?, if_neg (by decide), if_pos rfl]
      exact (marked _).trans (sparseSwitch?_units countable rest)
  | arrayData width count data complete padding =>
      have marked (others : List UInt16) :
          Body.read? (0x0300 :: others) = Body.arrayData? (0x0300 :: others) := by
        rw [Body.read?, if_neg (by decide), if_neg (by decide), if_pos rfl]
      exact (marked _).trans (arrayData?_units width count complete padding rest)

end Instructions

/-! ## Operands in writing -/

section Writing

variable {width : Nat}

theorem branchText_toInt (value : BitVec width) :
    Operand.branchText value.toInt = Spelling.distance value := by
  rw [Operand.branchText, Spelling.distance, BitVec.msb_eq_toInt]
  by_cases negative : value.toInt < 0
  · rw [if_neg (Int.not_le.mpr negative), if_pos (decide_eq_true negative), String.empty_append]
  · rw [if_pos (Int.not_lt.mp negative), if_neg (by simpa using negative)]

theorem rangeText_toNat (first : BitVec 16) (count : BitVec 8) :
    Operand.rangeText first.toNat count.toNat = Spelling.registerRange first count := by
  rw [Operand.rangeText, Spelling.registerRange]
  match count.toNat with
  | 0 => rfl
  | 1 => rfl
  | between + 2 =>
      have front : "\x7bv" = "\x7b" ++ "v" := rfl
      have middle : " .. v" = " .. " ++ "v" := rfl
      have last : first.toNat + (between + 2) - 1 = first.toNat + between + 1 := by omega
      rw [if_neg (Nat.succ_ne_zero _), if_neg (by omega), last, front, middle]
      simp only [Operand.braced, Operand.registerText, String.intercalate_singleton,
        String.append_assoc]

theorem referenceText_toNat (pool : ConstantPool) (kind : ReferenceKind) (index : BitVec width) :
    Operand.referenceText pool kind index.toNat = Spelling.reference pool kind index := by
  simp only [Operand.referenceText, Spelling.reference]
  cases pool.resolve? kind index.toNat with
  | none => cases kind <;> rfl
  | some found => cases kind <;> rfl

theorem literalText_moved (value : BitVec width) (places : Nat) :
    Operand.literalText (value.toInt * Nat.pow 2 places) =
      Spelling.literal (value ++ BitVec.ofNat places 0) := by
  rw [Operand.literalText, Spelling.literal, BitVec.toInt_append_zero, Int.mul_comm]
  simp

theorem texts_operands {format : Format} {reference : Option ReferenceKind} (pool : ConstantPool)
    (places : Nat) (arguments : Arguments format reference) :
    (arguments.operands places).map (Operand.text pool) = arguments.texts pool places := by
  have registers (numbers : List (BitVec 4)) :
      Operand.braced ((numbers.map BitVec.toNat).map Operand.registerText) =
        Spelling.registerList numbers := by
    rw [List.map_map]
    rfl
  cases arguments <;>
    simp only [Arguments.operands, Arguments.texts, List.map_cons, List.map_nil, Operand.text,
      branchText_toInt, rangeText_toNat, referenceText_toNat, literalText_moved, registers] <;>
    rfl

/-- The operands of an instruction are listed as they are written. -/
theorem operandText_body (code : Code) (pool : ConstantPool) :
    code.body.operandText pool = code.text pool := by
  cases code with
  | operation opcode assigned arguments unused idle =>
      rw [Code.body, Body.operandText, texts_operands, Code.text]
  | unassigned code free unused => rfl
  | packedSwitch firstKey targets countable =>
      have distances : (targets.map BitVec.toInt).map Operand.branchText =
          targets.map Spelling.distance := by
        rw [List.map_map]
        exact List.map_congr_left fun target _ => branchText_toInt target
      have opening : ", \x7b" = ", " ++ "\x7b" := rfl
      rw [Code.body, Body.operandText, distances, Code.text, opening]
      simp only [Operand.braced, String.append_assoc]
      rfl
  | sparseSwitch cases countable =>
      have texts : (cases.map fun case => (case.1.toInt, case.2.toInt)).map Body.caseText =
          cases.map fun case => Spelling.literal case.1 ++ ": " ++ Spelling.distance case.2 := by
        rw [List.map_map]
        refine List.map_congr_left fun case _ => ?_
        rw [Function.comp_apply, Body.caseText, branchText_toInt]
        rfl
      rw [Code.body, Body.operandText, texts, Code.text, Operand.braced]
  | arrayData width count data complete padding =>
      have opening : " elements, `" = " elements, " ++ "`" := rfl
      rw [Code.body, Body.operandText, Code.text, Hex.literal, opening]
      simp only [String.append_assoc]

end Writing

/-! ## Bodies -/

section Bodies

theorem units_ne_nil (code : Code) : code.units ≠ [] := by
  intro empty
  have found := read?_units code []
  rw [empty] at found
  cases found

/-- The instructions of a program that starts at a position, each behind those before it. -/
def placed (position : Nat) (program : List Code) : List Instruction :=
  program.mapIdx fun index code =>
    ⟨position + (assemble (program.take index)).length, code.body⟩

theorem placed_cons (position : Nat) (code : Code) (rest : List Code) :
    placed position (code :: rest) =
      ⟨position, code.body⟩ :: placed (position + code.units.length) rest := by
  simp only [placed, List.mapIdx_cons, List.take_zero, List.take_succ_cons]
  simp [assemble, Nat.add_assoc]

/-- Reading a program from a position on gives its instructions at their places. -/
theorem decodeFrom_assemble (position : Nat) (program : List Code) :
    Instruction.decodeFrom position (assemble program) = .ok (placed position program) := by
  induction program generalizing position with
  | nil =>
      rw [Instruction.decodeFrom]
      rfl
  | cons code rest inductionHypothesis =>
      have layout : assemble (code :: rest) = code.units ++ assemble rest := List.flatMap_cons
      have occupied : (code.units ++ assemble rest).isEmpty = false := by
        simp [units_ne_nil code]
      have size : 0 < code.units.length ∧
          code.units.length ≤ (code.units ++ assemble rest).length := by
        have positive := List.length_pos_of_ne_nil (units_ne_nil code)
        rw [List.length_append]
        omega
      rw [layout, Instruction.decodeFrom, occupied, read?_units]
      simp only [Bool.false_eq_true, if_false, dif_pos size, List.drop_left,
        inductionHypothesis, placed_cons]
      rfl

theorem listed_body (code : Code) (pool : ConstantPool) :
    code.body.code = code.opcode ∧ code.body.mnemonic = code.mnemonic ∧
      code.body.operandText pool = code.text pool := by
  refine ⟨?_, ?_, operandText_body code pool⟩
  · cases code <;> rfl
  · cases code <;> rfl

theorem decodeCode_placed (program : List Code) (start : Nat) :
    decodeCode start (assemble program) = .ok (placed 0 program) := by
  rw [decodeCode, Instruction.decode, decodeFrom_assemble]

theorem text_body (code : Code) (pool : ConstantPool) (position : Nat) :
    Instruction.text pool ⟨position, code.body⟩ = code.line pool := by
  obtain ⟨-, mnemonic, operands⟩ := listed_body code pool
  rw [Instruction.text, Code.line, mnemonic, operands]
  by_cases none : code.text pool = ""
  · rw [if_pos none, none]
    exact String.append_empty
  · rw [if_neg none, if_neg (by simpa using none), String.append_assoc, String.append_assoc,
      String.append_assoc]

theorem text_placed (program : List Code) (pool : ConstantPool) (position : Nat) :
    (placed position program).map (Instruction.text pool) = program.map (Code.line pool) := by
  induction program generalizing position with
  | nil => rfl
  | cons code rest inductionHypothesis =>
      rw [placed_cons, List.map_cons, text_body, inductionHypothesis, List.map_cons]

/-- Every assigned opcode can be assembled, and a body that was assembled is listed as it was meant,
for every pool of constants and every place of the code: each instruction stands behind the units of
those before it, with its own opcode, mnemonic and operands. -/
theorem decodeCode_assemble :
    (∀ opcode ∈ Opcode.all, Nonempty (Arguments opcode.format opcode.reference)) ∧
    ∀ (program : List Code) (pool : ConstantPool) (start : Nat),
      (decodeCode start (assemble program)).map (·.map fun instruction =>
          (instruction.position, instruction.body.code, instruction.body.mnemonic,
            instruction.body.operandText pool)) =
        .ok (program.mapIdx fun index code =>
          ((assemble (program.take index)).length, code.opcode, code.mnemonic,
            code.text pool)) := by
  refine ⟨fun opcode assigned => Arguments.nonempty_of_mem_all assigned, ?_⟩
  intro program pool start
  have listed : (placed 0 program).map (fun instruction =>
      (instruction.position, instruction.body.code, instruction.body.mnemonic,
        instruction.body.operandText pool)) =
      program.mapIdx fun index code =>
        ((assemble (program.take index)).length, code.opcode, code.mnemonic, code.text pool) := by
    rw [placed, List.mapIdx_eq_zipIdx_map, List.mapIdx_eq_zipIdx_map, List.map_map]
    refine List.map_congr_left fun entry _ => ?_
    obtain ⟨code, mnemonic, text⟩ := listed_body entry.1 pool
    simp only [Function.comp_apply, code, mnemonic, text, Nat.zero_add]
  rw [decodeCode_placed, Except.map, listed]

/-- A string that is there and one that is not, a literal with zeros behind it, a distance in front
of the instruction and a range of registers, an opcode that is not assigned, and a table. -/
def mixedProgram : List Code := [
  .operation ⟨0x1A, "const-string", .f21c, some .string⟩ (by decide) (.f21c .string 3 0) 0 nofun,
  .operation ⟨0x19, "const-wide/high16", .f21h, none⟩ (by decide) (.f21h 0 0xFFFF) 0 nofun,
  .operation ⟨0x34, "if-lt", .f22t, none⟩ (by decide) (.f22t 1 2 0xFFFD) 0 nofun,
  .operation ⟨0x74, "invoke-virtual/range", .f3rc, some .method⟩ (by decide)
    (.f3rc .method 4 3 7) 0 nofun,
  .unassigned 0x3E (by decide +kernel) 0xFF,
  .packedSwitch 0xFFFFFFFF [6, 0xFFFFFFFA] (by decide)]

theorem decodeCode_mixedProgram :
    (⟨0x1A, "const-string", .f21c, some .string⟩ : Opcode) ∈ Opcode.all ∧
    Nonempty (Arguments .f21c (some .string)) ∧
    (decodeCode 0 (assemble mixedProgram)).map (·.map fun instruction =>
        (instruction.position, instruction.body.code, instruction.body.mnemonic,
          instruction.body.operandText ⟨fun _ index => [some "a\n"].getD index none⟩)) =
      .ok [(0, 0x1A, "const-string", "v3, \"a\\n\""),
        (2, 0x19, "const-wide/high16", "v0, #-281474976710656"),
        (4, 0x34, "if-lt", "v1, v2, -3"),
        (6, 0x74, "invoke-virtual/range", "\x7bv4 .. v6\x7d, method@7"),
        (9, 0x3E, "unused-3e", ""),
        (10, 0, "packed-switch-payload", "#-1, \x7b+6, -6\x7d")] := by
  obtain ⟨assembled, decoded⟩ := decodeCode_assemble
  have assigned : (⟨0x1A, "const-string", .f21c, some .string⟩ : Opcode) ∈ Opcode.all := by decide
  refine ⟨assigned, assembled _ assigned, (decoded mixedProgram _ 0).trans (congrArg Except.ok ?_)⟩
  decide +kernel

end Bodies

end ByteListing.Dex
