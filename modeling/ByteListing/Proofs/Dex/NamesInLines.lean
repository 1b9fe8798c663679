import ByteListing.Dex.Classes
import ByteListing.Proofs.Dex.Tiling
import ByteListing.Proofs.Text.OneLine

/-! # Names in lines

Strings that an instruction refers to are quoted, so that they cannot end its line.  Names are not:
they stand as they are in the name of a class, in a signature and in an instruction.  Everything
else in these texts is made of numbers and fixed words.  So each of them is one line if and only if
the names in it are: the name of a class as its descriptor (`TypeName.oneLine_ofDescriptor_iff`), a
signature with its method and its return type (`Method.oneLine_signature_iff`), and an instruction
with what it refers to (`oneLine_instruction_iff`). -/
set_option autoImplicit false
namespace ByteListing.Dex

/-! ## Types and signatures -/

namespace TypeName

theorem oneLine_primitive {code : Char} {name : String} (found : primitive? code = some name) :
    OneLine name ∧ ¬ EndsLine code := by
  rw [primitive?.eq_def] at found
  split at found
  case h_10 => cases found
  all_goals
    cases found
    decide

theorem oneLine_ofCode (code : Char) : OneLine (ofCode code) := by
  rw [ofCode]
  split
  · rename_i name found
    exact (oneLine_primitive found).1
  · split
    · decide
    · split <;> decide

theorem element?_plain_iff {element name : List Char} (found : element? element = some name) :
    (∀ c ∈ name, ¬ EndsLine c) ↔ ∀ c ∈ element, ¬ EndsLine c := by
  rw [element?.eq_def] at found
  split at found
  · cases found
  · rename_i code
    obtain ⟨text, primitive, rfl⟩ := Option.map_eq_some_iff.mp found
    obtain ⟨plain, codePlain⟩ := oneLine_primitive primitive
    exact ⟨fun _ => List.forall_mem_singleton.mpr codePlain, fun _ => plain⟩
  · split at found
    · rename_i code rest _ wellFormed
      obtain ⟨rfl, -, last⟩ := wellFormed
      obtain rfl := Option.some.inj found
      have restEq : rest.dropLast ++ [';'] = rest := List.dropLast_append_getLast? _ last
      rw [← restEq, List.dropLast_concat, List.forall_mem_cons, List.forall_mem_append,
        List.forall_mem_singleton]
      exact ⟨fun plain => ⟨by decide, plain, by decide⟩, fun plain => plain.2.1⟩
    · cases found

theorem oneLine_ofDescriptor_iff (descriptor : String) :
    OneLine (ofDescriptor descriptor) ↔ OneLine descriptor := by
  have brackets : ∀ c ∈ descriptor.toList.takeWhile (· = '['), ¬ EndsLine c := by
    intro c member
    have bracket : c = '[' := of_decide_eq_true (List.all_eq_true.mp List.all_takeWhile c member)
    rw [bracket]
    decide
  have whole := List.prefix_iff_eq_append.mp
    (List.takeWhile_prefix (fun c => decide (c = '[')) : _ <+: descriptor.toList)
  rw [ofDescriptor]
  split
  · rename_i name found
    have pairs : ∀ c ∈ (descriptor.toList.takeWhile (· = '[')).flatMap fun _ => ['[', ']'],
        ¬ EndsLine c := by
      intro c member
      obtain ⟨-, -, inside⟩ := List.mem_flatMap.mp member
      rcases List.mem_cons.mp inside with rfl | closing
      · decide
      · rw [List.mem_singleton.mp closing]
        decide
    rw [oneLine_ofList_iff, List.forall_mem_append, element?_plain_iff found, OneLine]
    conv =>
      rhs
      rw [← whole, List.forall_mem_append]
    exact ⟨fun plain => ⟨brackets, plain.1⟩, fun plain => ⟨plain.2, pairs⟩⟩
  · exact Iff.rfl

end TypeName

theorem Method.oneLine_signature_iff (method : Method) :
    OneLine method.signature ↔ OneLine method.name ∧
      ∀ code ∈ method.shorty.toList.head?, code = 'L' ∨ code = '[' → OneLine method.returnType := by
  rw [signature, TypeName.signature]
  cases method.shorty.toList with
  | nil =>
      rw [oneLine_append_iff, oneLine_append_iff]
      exact ⟨fun plain => ⟨plain.1.2, nofun⟩, fun plain => ⟨⟨by decide, plain.1⟩, by decide⟩⟩
  | cons code parameters =>
      have listed : OneLine (", ".intercalate (parameters.map TypeName.ofCode)) := by
        rw [oneLine_intercalate_iff (by decide), List.forall_mem_map]
        exact fun code _ => TypeName.oneLine_ofCode code
      have returned : OneLine (TypeName.ofReturnCode (some method.returnType) code) ↔
          (code = 'L' ∨ code = '[' → OneLine method.returnType) := by
        rw [TypeName.ofReturnCode]
        split
        · rename_i reference
          exact ⟨fun plain _ => plain, fun plain => plain reference⟩
        · rename_i noReference
          exact ⟨fun _ reference => absurd reference noReference,
            fun _ => TypeName.oneLine_ofCode code⟩
      simp only [oneLine_append_iff, returned, List.head?_cons, Option.mem_some, forall_eq']
      constructor
      · rintro ⟨⟨⟨⟨⟨type, -⟩, name⟩, -⟩, -⟩, -⟩
        exact ⟨name, type⟩
      · rintro ⟨name, type⟩
        exact ⟨⟨⟨⟨⟨type, by decide⟩, name⟩, by decide⟩, listed⟩, by decide⟩

/-! ## Instructions -/

namespace Operand

theorem oneLine_registerText (number : Nat) : OneLine (registerText number) :=
  oneLine_append_iff.mpr ⟨by decide, oneLine_toString number⟩

theorem oneLine_literalText (value : Int) : OneLine (literalText value) :=
  oneLine_append_iff.mpr ⟨by decide, oneLine_toString_int value⟩

theorem oneLine_branchText (distance : Int) : OneLine (branchText distance) := by
  rw [branchText]
  split
  · exact oneLine_append_iff.mpr ⟨by decide, oneLine_toString_int distance⟩
  · exact oneLine_toString_int distance

theorem oneLine_braced {texts : List String} (plain : ∀ text ∈ texts, OneLine text) :
    OneLine (braced texts) := by
  rw [braced, oneLine_append_iff, oneLine_append_iff, oneLine_intercalate_iff (by decide)]
  exact ⟨⟨by decide, plain⟩, by decide⟩

theorem oneLine_rangeText (first count : Nat) : OneLine (rangeText first count) := by
  rw [rangeText]
  split
  · exact oneLine_braced (List.forall_mem_nil _)
  · split
    · exact oneLine_braced (List.forall_mem_singleton.mpr (oneLine_registerText first))
    · refine oneLine_braced (List.forall_mem_singleton.mpr ?_)
      rw [oneLine_append_iff, oneLine_append_iff]
      exact ⟨⟨oneLine_registerText first, by decide⟩, oneLine_registerText _⟩

/-- What a reference is resolved to is one line, unless it is a string. -/
def NamesOneLine (pool : ConstantPool) (kind : ReferenceKind) (index : Nat) : Prop :=
  kind ≠ .string → ∀ found ∈ pool.resolve? kind index, OneLine found

theorem oneLine_referenceText_iff (pool : ConstantPool) (kind : ReferenceKind) (index : Nat) :
    OneLine (referenceText pool kind index) ↔ NamesOneLine pool kind index := by
  rw [referenceText, NamesOneLine]
  cases resolved : pool.resolve? kind index with
  | none =>
      have label : OneLine kind.label := by cases kind <;> decide
      have plain : OneLine (kind.label ++ "@" ++ toString index) := by
        rw [oneLine_append_iff, oneLine_append_iff]
        exact ⟨⟨label, by decide⟩, oneLine_toString index⟩
      have nothing : ∀ found ∈ (none : Option String), OneLine found := by simp
      exact ⟨fun _ _ => nothing, fun _ => plain⟩
  | some found =>
      by_cases string : kind = .string
      · have quoted : OneLine (Quoted.ofString found) := Quoted.oneLine_ofText found.toList
        simp only [if_pos string]
        exact ⟨fun _ name => absurd string name, fun _ => quoted⟩
      · simp only [if_neg string, Option.mem_some, forall_eq']
        exact ⟨fun plain _ => plain, fun plain => plain string⟩

theorem oneLine_text_iff (pool : ConstantPool) (operand : Operand) :
    OneLine (operand.text pool) ↔
      ∀ kind index, operand = .reference kind index → NamesOneLine pool kind index := by
  cases operand with
  | register number => exact iff_of_true (oneLine_registerText number) (by rintro _ _ ⟨⟩)
  | registers numbers =>
      have listed : OneLine (braced (numbers.map registerText)) := by
        refine oneLine_braced (List.forall_mem_map.mpr ?_)
        exact fun number _ => oneLine_registerText number
      exact iff_of_true listed (by rintro _ _ ⟨⟩)
  | registerRange first count =>
      exact iff_of_true (oneLine_rangeText first count) (by rintro _ _ ⟨⟩)
  | literal value => exact iff_of_true (oneLine_literalText value) (by rintro _ _ ⟨⟩)
  | branch distance => exact iff_of_true (oneLine_branchText distance) (by rintro _ _ ⟨⟩)
  | reference kind index =>
      rw [text, oneLine_referenceText_iff]
      constructor
      · rintro plain _ _ ⟨⟩
        exact plain
      · intro plain
        exact plain kind index rfl

end Operand

namespace Body

/-- An instruction of a body refers to an entry of a table. -/
inductive Refers : Body → ReferenceKind → Nat → Prop
  | operand {opcode : Opcode} {operands : List Operand} {kind : ReferenceKind} {index : Nat} :
      .reference kind index ∈ operands → Refers (.operation opcode operands) kind index

theorem oneLine_operandText_iff (pool : ConstantPool) (body : Body) :
    OneLine (body.operandText pool) ↔
      ∀ kind index, body.Refers kind index → Operand.NamesOneLine pool kind index := by
  cases body with
  | operation opcode operands =>
      rw [operandText, oneLine_intercalate_iff (by decide), List.forall_mem_map]
      constructor
      · rintro plain kind index ⟨member⟩
        exact (Operand.oneLine_text_iff pool _).mp (plain _ member) kind index rfl
      · intro plain operand member
        rw [Operand.oneLine_text_iff]
        rintro kind index rfl
        exact plain kind index (.operand member)
  | unassigned code => exact iff_of_true (by decide : OneLine "") (by rintro _ _ ⟨⟩)
  | packedSwitch firstKey targets =>
      have listed : OneLine (operandText pool (.packedSwitch firstKey targets)) := by
        rw [operandText, oneLine_append_iff, oneLine_append_iff]
        refine ⟨⟨Operand.oneLine_literalText firstKey, by decide⟩, ?_⟩
        refine Operand.oneLine_braced (List.forall_mem_map.mpr ?_)
        exact fun distance _ => Operand.oneLine_branchText distance
      exact iff_of_true listed (by rintro _ _ ⟨⟩)
  | sparseSwitch cases =>
      have listed : OneLine (operandText pool (.sparseSwitch cases)) := by
        refine Operand.oneLine_braced (List.forall_mem_map.mpr fun case _ => ?_)
        rw [caseText, oneLine_append_iff, oneLine_append_iff]
        exact ⟨⟨Operand.oneLine_literalText case.1, by decide⟩, Operand.oneLine_branchText case.2⟩
      exact iff_of_true listed (by rintro _ _ ⟨⟩)
  | arrayData width count data =>
      have listed : OneLine (operandText pool (.arrayData width count data)) := by
        simp only [operandText, oneLine_append_iff]
        exact ⟨⟨⟨⟨⟨by decide, oneLine_toString width⟩, by decide⟩, oneLine_toString count⟩,
          by decide⟩, Hex.oneLine_literal data⟩
      exact iff_of_true listed (by rintro _ _ ⟨⟩)

theorem oneLine_name {opcode : Opcode} (assigned : opcode ∈ Opcode.all) :
    OneLine opcode.name := by
  have printable : (Opcode.families.all fun family => family.names.all fun name =>
      name.toByteArray.data.toList.all fun octet => Nat.ble 32 octet.toNat) = true := by
    decide +kernel
  obtain ⟨family, listed, member⟩ := List.mem_flatMap.mp assigned
  obtain ⟨index, inside, rfl⟩ := List.mem_mapIdx.mp member
  have familyPrintable := List.all_eq_true.mp printable family listed
  have namePrintable := List.all_eq_true.mp familyPrintable _ (List.getElem_mem inside)
  exact oneLine_of_octets fun octet encoded =>
    Nat.le_of_ble_eq_true (List.all_eq_true.mp namePrintable octet encoded)

theorem oneLine_unassigned {code : Nat} (octet : code < 256) :
    OneLine (mnemonic (.unassigned code)) := by
  have digits : ∀ value < 16, ¬ EndsLine (Hex.digit value) := by decide
  have shown : OneLine (String.ofList [Hex.digit (code / 16), Hex.digit (code % 16)]) := by
    rw [oneLine_ofList_iff, List.forall_mem_cons, List.forall_mem_singleton]
    exact ⟨digits _ (by omega), digits _ (by omega)⟩
  exact oneLine_append_iff.mpr ⟨by decide, shown⟩

theorem oneLine_mnemonic {units : List UInt16} {body : Body} {size : Nat}
    (found : read? units = some (body, size)) : OneLine body.mnemonic := by
  cases units with
  | nil => cases found
  | cons first rest =>
      rw [read?] at found
      split at found
      · obtain ⟨count, -, found⟩ := Option.bind_eq_some_iff.mp found
        obtain ⟨taken, -, found⟩ := Option.bind_eq_some_iff.mp found
        obtain ⟨firstKey, -, found⟩ := Option.bind_eq_some_iff.mp found
        obtain ⟨rfl, -⟩ := Prod.mk.inj (Option.some.inj found)
        exact (by decide : OneLine "packed-switch-payload")
      · split at found
        · obtain ⟨count, -, found⟩ := Option.bind_eq_some_iff.mp found
          obtain ⟨taken, -, found⟩ := Option.bind_eq_some_iff.mp found
          obtain ⟨rfl, -⟩ := Prod.mk.inj (Option.some.inj found)
          exact (by decide : OneLine "sparse-switch-payload")
        · split at found
          · obtain ⟨width, -, found⟩ := Option.bind_eq_some_iff.mp found
            obtain ⟨low, -, found⟩ := Option.bind_eq_some_iff.mp found
            obtain ⟨high, -, found⟩ := Option.bind_eq_some_iff.mp found
            obtain ⟨taken, -, found⟩ := Option.bind_eq_some_iff.mp found
            obtain ⟨rfl, -⟩ := Prod.mk.inj (Option.some.inj found)
            exact (by decide : OneLine "fill-array-data-payload")
          · rw [operation?] at found
            split at found
            · obtain ⟨rfl, -⟩ := Prod.mk.inj (Option.some.inj found)
              exact oneLine_unassigned (Nat.mod_lt _ (by decide))
            · rename_i opcode assigned
              obtain ⟨taken, -, equal⟩ := Option.map_eq_some_iff.mp found
              obtain ⟨rfl, -⟩ := Prod.mk.inj equal
              exact oneLine_name (ofCode?_eq_some assigned).1

end Body

theorem exists_read_of_tiles {position : Nat} {units : List UInt16}
    {instructions : List Instruction} (tiles : Tiles position units instructions)
    {instruction : Instruction} (listed : instruction ∈ instructions) :
    ∃ units size, Body.read? units = some (instruction.body, size) := by
  induction tiles with
  | nil => cases listed
  | @cons position own rest body instructions _ _ read _ inductionHypothesis =>
      rcases List.mem_cons.mp listed with rfl | later
      · exact ⟨own ++ rest, own.length, read rest⟩
      · exact inductionHypothesis later

/-- An instruction is one line exactly if what it refers to is, strings apart. -/
theorem oneLine_instruction_iff {start : Nat} {units : List UInt16}
    {instructions : List Instruction} (decoded : decodeCode start units = .ok instructions)
    (pool : ConstantPool) {instruction : Instruction} (listed : instruction ∈ instructions) :
    OneLine (instruction.text pool) ↔
      ∀ kind index, instruction.body.Refers kind index → Operand.NamesOneLine pool kind index := by
  obtain ⟨_, _, read⟩ := exists_read_of_tiles (decodeCode_eq_ok_iff.mp decoded) listed
  have head : OneLine ("  " ++ instruction.body.mnemonic) :=
    oneLine_append_iff.mpr ⟨by decide, Body.oneLine_mnemonic read⟩
  rw [← Body.oneLine_operandText_iff, Instruction.text, oneLine_append_iff, and_iff_right head]
  split
  · rename_i nothing
    rw [String.isEmpty_iff.mp nothing]
  · rw [oneLine_append_iff]
    exact and_iff_right (by decide)

end ByteListing.Dex
