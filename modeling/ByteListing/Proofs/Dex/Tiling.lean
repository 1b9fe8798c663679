import Mathlib.Data.List.Chain
import ByteListing.Dex.Classes
import ByteListing.Proofs.Dex.Disassembly

/-! # Instructions tile a body

`Whole` says which units are one instruction, table or array data, by its opcode or by what it says
of its own size.  The reader takes whole instructions off the front and looks at nothing behind
them (`read?_append`, `whole_of_read?`), so that a body is read exactly if it is cut into whole
instructions (`decodeFrom_eq_ok_iff`), and reading stops where none of them begins
(`decodeFrom_eq_error_iff`).  What follows a body that can be read changes nothing in it. -/
set_option autoImplicit false
namespace ByteListing.Dex

/-- The units of one instruction, table or array data, with nothing behind it. -/
inductive Whole : List UInt16 → Prop
  | packedSwitch {count : UInt16} {entries : List UInt16} :
      entries.length = 2 + 2 * count.toNat → Whole (0x0100 :: count :: entries)
  | sparseSwitch {count : UInt16} {entries : List UInt16} :
      entries.length = 4 * count.toNat → Whole (0x0200 :: count :: entries)
  | arrayData {width low high : UInt16} {elements : List UInt16} :
      elements.length = (width.toNat * word low high + 1) / 2 →
      Whole (0x0300 :: width :: low :: high :: elements)
  | operation {opcode : Opcode} {first : UInt16} {others : List UInt16} :
      opcode ∈ Opcode.all → first.toNat % 256 = opcode.code →
      first ≠ 0x0100 → first ≠ 0x0200 → first ≠ 0x0300 →
      others.length + 1 = opcode.format.units → Whole (first :: others)
  | unassigned {first : UInt16} :
      (∀ opcode ∈ Opcode.all, opcode.code ≠ first.toNat % 256) → Whole [first]

def Body.size : Body → Nat
  | operation opcode _ => opcode.format.units
  | unassigned _ => 1
  | packedSwitch _ targets => 4 + 2 * targets.length
  | sparseSwitch cases => 2 + 4 * cases.length
  | arrayData width count _ => 4 + (width * count + 1) / 2

/-! ## One instruction -/

section Reading

theorem length_signedWords (units : List UInt16) :
    (signedWords units).length = units.length / 2 := by
  fun_induction signedWords units with
  | case1 low high rest inductionHypothesis =>
      simp only [List.length_cons, inductionHypothesis]
      omega
  | case2 units short =>
      match units, short with
      | [], _ => rfl
      | [_], _ => simp
      | low :: high :: rest, short => exact absurd rfl (short low high rest)

theorem leading?_eq_some {size : Nat} {units taken : List UInt16}
    (found : Body.leading? size units = some taken) :
    size ≤ units.length ∧ taken = units.take size := by
  refine ⟨Body.leading?_length found, ?_⟩
  rw [Body.leading?] at found
  split at found
  · exact (Option.some.inj found).symm
  · cases found

theorem ofCode?_eq_none_iff {code : Nat} :
    Opcode.ofCode? code = none ↔ ∀ opcode ∈ Opcode.all, opcode.code ≠ code := by
  simp [Opcode.ofCode?]

theorem ofCode?_eq_some {code : Nat} {opcode : Opcode} (found : Opcode.ofCode? code = some opcode) :
    opcode ∈ Opcode.all ∧ code = opcode.code := by
  have same := List.find?_some found
  exact ⟨List.mem_of_find?_eq_some found, (beq_iff_eq.mp same).symm⟩

theorem units_pos (format : Format) : 0 < format.units := by
  cases format <;> decide

theorem Whole.length_pos {own : List UInt16} (whole : Whole own) : 0 < own.length := by
  cases whole <;> simp

/-- A whole instruction is read off the front, whatever follows it. -/
theorem read?_append {own : List UInt16} (whole : Whole own) :
    ∃ body : Body, body.size = own.length ∧
      ∀ rest, Body.read? (own ++ rest) = some (body, own.length) := by
  cases whole with
  | @packedSwitch count entries length =>
      have size : (0x0100 :: count :: entries).length = 4 + 2 * count.toNat := by
        simp only [List.length_cons]
        omega
      cases key : signedWords entries with
      | nil =>
          have words := length_signedWords entries
          rw [key, List.length_nil] at words
          omega
      | cons firstKey others =>
          refine ⟨.packedSwitch firstKey (signedWords (entries.drop 2)), ?_, ?_⟩
          · simp only [Body.size, length_signedWords, List.length_drop, List.length_cons]
            omega
          · intro rest
            have taken : Body.leading? (4 + 2 * count.toNat)
                (0x0100 :: count :: (entries ++ rest)) =
                  some (0x0100 :: count :: entries) := leading?_append size rest
            rw [size, List.cons_append, List.cons_append, Body.read?, if_pos rfl,
              Body.packedSwitch?]
            simp [taken, key]
  | @sparseSwitch count entries length =>
      have size : (0x0200 :: count :: entries).length = 2 + 4 * count.toNat := by
        simp only [List.length_cons]
        omega
      refine ⟨.sparseSwitch (((signedWords entries).take count.toNat).zip
        ((signedWords entries).drop count.toNat)), ?_, ?_⟩
      · simp only [Body.size, List.length_zip, List.length_take, List.length_drop,
          length_signedWords, List.length_cons]
        omega
      · intro rest
        have taken : Body.leading? (2 + 4 * count.toNat) (0x0200 :: count :: (entries ++ rest)) =
            some (0x0200 :: count :: entries) := leading?_append size rest
        rw [size, List.cons_append, List.cons_append, Body.read?, if_neg (by decide), if_pos rfl,
          Body.sparseSwitch?]
        simp [taken]
  | @arrayData width low high elements length =>
      have size : (0x0300 :: width :: low :: high :: elements).length =
          4 + (width.toNat * word low high + 1) / 2 := by
        simp only [List.length_cons]
        omega
      refine ⟨.arrayData width.toNat (word low high)
        ((elements.flatMap Body.octets).take (width.toNat * word low high)), size.symm, ?_⟩
      intro rest
      have taken : Body.leading? (4 + (width.toNat * word low high + 1) / 2)
          (0x0300 :: width :: low :: high :: (elements ++ rest)) =
            some (0x0300 :: width :: low :: high :: elements) := leading?_append size rest
      rw [size, List.cons_append, List.cons_append, List.cons_append, List.cons_append, Body.read?,
        if_neg (by decide), if_neg (by decide), if_pos rfl, Body.arrayData?]
      simp [taken]
  | @operation opcode first others assigned started noPacked noSparse noData length =>
      refine ⟨.operation opcode (Window.operands ⟨first :: others⟩ opcode), length.symm, ?_⟩
      intro rest
      have size : (first :: others).length = opcode.format.units := length
      have taken : Body.leading? opcode.format.units (first :: (others ++ rest)) =
          some (first :: others) := leading?_append size rest
      rw [size, List.cons_append, Body.read?, if_neg noPacked,
        if_neg noSparse, if_neg noData, Body.operation?]
      simp [started, ofCode?_of_mem assigned, taken]
  | @unassigned first free =>
      refine ⟨.unassigned (first.toNat % 256), rfl, ?_⟩
      intro rest
      have nonzero : first.toNat % 256 ≠ 0 :=
        (free ⟨0, "nop", .f10x, none⟩ (by decide) ·.symm)
      rw [List.cons_append, List.nil_append, read?_of_code nonzero]
      simp [Body.operation?, ofCode?_eq_none_iff.mpr free]

theorem whole_of_packedSwitch? {rest : List UInt16} {body : Body} {size : Nat}
    (found : Body.packedSwitch? (0x0100 :: rest) = some (body, size)) :
    size ≤ (0x0100 :: rest).length ∧ Whole ((0x0100 :: rest).take size) := by
  rw [Body.packedSwitch?] at found
  obtain ⟨count, atCount, found⟩ := Option.bind_eq_some_iff.mp found
  obtain ⟨taken, lead, found⟩ := Option.bind_eq_some_iff.mp found
  obtain ⟨firstKey, -, found⟩ := Option.bind_eq_some_iff.mp found
  obtain ⟨-, rfl⟩ := Prod.mk.inj (Option.some.inj found)
  have bound := (leading?_eq_some lead).1
  cases rest with
  | nil => cases atCount
  | cons other entries =>
      obtain rfl : other = count := Option.some.inj atCount
      have shift : 4 + 2 * other.toNat = 2 + 2 * other.toNat + 1 + 1 := by omega
      refine ⟨bound, ?_⟩
      rw [shift, List.take_succ_cons, List.take_succ_cons]
      apply Whole.packedSwitch
      simp only [List.length_cons, List.length_take] at bound ⊢
      omega

theorem whole_of_sparseSwitch? {rest : List UInt16} {body : Body} {size : Nat}
    (found : Body.sparseSwitch? (0x0200 :: rest) = some (body, size)) :
    size ≤ (0x0200 :: rest).length ∧ Whole ((0x0200 :: rest).take size) := by
  rw [Body.sparseSwitch?] at found
  obtain ⟨count, atCount, found⟩ := Option.bind_eq_some_iff.mp found
  obtain ⟨taken, lead, found⟩ := Option.bind_eq_some_iff.mp found
  obtain ⟨-, rfl⟩ := Prod.mk.inj (Option.some.inj found)
  have bound := (leading?_eq_some lead).1
  cases rest with
  | nil => cases atCount
  | cons other entries =>
      obtain rfl : other = count := Option.some.inj atCount
      have shift : 2 + 4 * other.toNat = 4 * other.toNat + 1 + 1 := by omega
      refine ⟨bound, ?_⟩
      rw [shift, List.take_succ_cons, List.take_succ_cons]
      apply Whole.sparseSwitch
      simp only [List.length_cons, List.length_take] at bound ⊢
      omega

theorem whole_of_arrayData? {rest : List UInt16} {body : Body} {size : Nat}
    (found : Body.arrayData? (0x0300 :: rest) = some (body, size)) :
    size ≤ (0x0300 :: rest).length ∧ Whole ((0x0300 :: rest).take size) := by
  rw [Body.arrayData?] at found
  obtain ⟨width, atWidth, found⟩ := Option.bind_eq_some_iff.mp found
  obtain ⟨low, atLow, found⟩ := Option.bind_eq_some_iff.mp found
  obtain ⟨high, atHigh, found⟩ := Option.bind_eq_some_iff.mp found
  obtain ⟨taken, lead, found⟩ := Option.bind_eq_some_iff.mp found
  obtain ⟨-, rfl⟩ := Prod.mk.inj (Option.some.inj found)
  have bound := (leading?_eq_some lead).1
  obtain _ | ⟨other, _ | ⟨first, _ | ⟨second, elements⟩⟩⟩ := rest
  · cases atWidth
  · cases atLow
  · cases atHigh
  · obtain rfl : other = width := Option.some.inj atWidth
    obtain rfl : first = low := Option.some.inj atLow
    obtain rfl : second = high := Option.some.inj atHigh
    have shift : 4 + (other.toNat * word first second + 1) / 2 =
        (other.toNat * word first second + 1) / 2 + 1 + 1 + 1 + 1 := by omega
    refine ⟨bound, ?_⟩
    rw [shift, List.take_succ_cons, List.take_succ_cons, List.take_succ_cons,
      List.take_succ_cons]
    apply Whole.arrayData
    simp only [List.length_cons, List.length_take] at bound ⊢
    omega

theorem whole_of_operation? {first : UInt16} {rest : List UInt16} {body : Body} {size : Nat}
    (noPacked : first ≠ 0x0100) (noSparse : first ≠ 0x0200) (noData : first ≠ 0x0300)
    (found : Body.operation? first (first :: rest) = some (body, size)) :
    size ≤ (first :: rest).length ∧ Whole ((first :: rest).take size) := by
  rw [Body.operation?] at found
  split at found
  · rename_i free
    obtain ⟨-, rfl⟩ := Prod.mk.inj (Option.some.inj found)
    refine ⟨by simp, ?_⟩
    rw [List.take_succ_cons, List.take_zero]
    exact Whole.unassigned (ofCode?_eq_none_iff.mp free)
  · rename_i opcode assigned
    obtain ⟨taken, lead, equal⟩ := Option.map_eq_some_iff.mp found
    obtain ⟨-, rfl⟩ := Prod.mk.inj equal
    obtain ⟨member, started⟩ := ofCode?_eq_some assigned
    have bound := (leading?_eq_some lead).1
    have positive := units_pos opcode.format
    obtain ⟨count, unitsEq⟩ := Nat.exists_eq_succ_of_ne_zero (Nat.ne_of_gt positive)
    refine ⟨bound, ?_⟩
    rw [unitsEq, List.take_succ_cons]
    refine Whole.operation member started noPacked noSparse noData ?_
    rw [unitsEq, List.length_cons] at bound
    rw [List.length_take, unitsEq]
    omega

/-- What is read off the front is a whole instruction. -/
theorem whole_of_read? {units : List UInt16} {body : Body} {size : Nat}
    (found : Body.read? units = some (body, size)) :
    size ≤ units.length ∧ Whole (units.take size) := by
  cases units with
  | nil => cases found
  | cons first rest =>
      rw [Body.read?] at found
      split at found
      · rename_i packed
        subst packed
        exact whole_of_packedSwitch? found
      · rename_i noPacked
        split at found
        · rename_i sparse
          subst sparse
          exact whole_of_sparseSwitch? found
        · rename_i noSparse
          split at found
          · rename_i data
            subst data
            exact whole_of_arrayData? found
          · rename_i noData
            exact whole_of_operation? noPacked noSparse noData found

theorem read?_own {units : List UInt16} {body : Body} {size : Nat}
    (found : Body.read? units = some (body, size)) :
    ∃ own rest, units = own ++ rest ∧ Whole own ∧ own.length = size ∧ body.size = size ∧
      ∀ others, Body.read? (own ++ others) = some (body, size) := by
  obtain ⟨bound, whole⟩ := whole_of_read? found
  have length : (units.take size).length = size := by simp [bound]
  obtain ⟨other, otherSize, read⟩ := read?_append whole
  have again := read (units.drop size)
  rw [List.take_append_drop, found, length] at again
  obtain ⟨rfl, -⟩ := Prod.mk.inj (Option.some.inj again)
  rw [length] at read otherSize
  exact ⟨units.take size, units.drop size, (List.take_append_drop ..).symm, whole, length,
    otherSize, read⟩

theorem read?_eq_none_iff {units : List UInt16} :
    Body.read? units = none ↔ ∀ own, Whole own → ¬ own <+: units := by
  constructor
  · rintro missing own whole ⟨rest, rfl⟩
    obtain ⟨body, -, read⟩ := read?_append whole
    rw [read] at missing
    cases missing
  · intro noWhole
    cases found : Body.read? units with
    | none => rfl
    | some shown =>
        obtain ⟨own, rest, rfl, whole, -⟩ := read?_own found
        exact absurd (List.prefix_append own rest) (noWhole own whole)

end Reading

/-! ## Whole bodies -/

/-- Instructions that are read one behind the other, from a position on, each from its own units. -/
inductive Tiles : (position : Nat) → (units : List UInt16) → List Instruction → Prop
  | nil {position : Nat} : Tiles position [] []
  | cons {position : Nat} {own rest : List UInt16} {body : Body} {instructions : List Instruction} :
      Whole own → body.size = own.length → (∀ others, Body.read? (own ++ others) =
        some (body, own.length)) → Tiles (position + own.length) rest instructions →
      Tiles position (own ++ rest) (⟨position, body⟩ :: instructions)

namespace Instruction

def stop (instruction : Instruction) : Nat := instruction.position + instruction.body.size

def moved (offset : Nat) (instruction : Instruction) : Instruction :=
  { instruction with position := offset + instruction.position }

section Steps

variable {position : Nat}

theorem decodeFrom_nil : decodeFrom position [] = .ok [] := by
  rw [decodeFrom]
  rfl

theorem decodeFrom_own {own : List UInt16} {body : Body} (whole : Whole own)
    (read : ∀ others, Body.read? (own ++ others) = some (body, own.length))
    (rest : List UInt16) :
    decodeFrom position (own ++ rest) =
      (decodeFrom (position + own.length) rest).map (⟨position, body⟩ :: ·) := by
  have positive := whole.length_pos
  have occupied : (own ++ rest).isEmpty = false := by
    simp [List.ne_nil_of_length_pos positive]
  have inside : 0 < own.length ∧ own.length ≤ (own ++ rest).length := by
    simp [positive]
  rw [decodeFrom, occupied, read]
  simp only [Bool.false_eq_true, if_false, dif_pos inside, List.drop_left]

theorem decodeFrom_stuck {units : List UInt16} (occupied : units ≠ [])
    (stuck : Body.read? units = none) : decodeFrom position units = .error position := by
  rw [decodeFrom, stuck]
  simp [occupied]

end Steps

/-- A body is empty, or a whole instruction is read off its front and the rest is a body again, or
nothing is read off its front. -/
@[elab_as_elim]
theorem cut_induction {motive : List UInt16 → Prop} (empty : motive [])
    (step : ∀ own rest (body : Body), Whole own → body.size = own.length →
      (∀ others, Body.read? (own ++ others) = some (body, own.length)) → motive rest →
      motive (own ++ rest))
    (stuck : ∀ units, units ≠ [] → Body.read? units = none → motive units)
    (units : List UInt16) : motive units := by
  induction length : units.length using Nat.strong_induction_on generalizing units with
  | _ count shorter =>
    subst length
    by_cases occupied : units = []
    · rw [occupied]
      exact empty
    · cases found : Body.read? units with
      | none => exact stuck units occupied found
      | some shown =>
          obtain ⟨own, rest, rfl, whole, length, size, read⟩ := read?_own found
          rw [← length] at size read
          have less : rest.length < (own ++ rest).length := by
            have positive := whole.length_pos
            rw [List.length_append]
            omega
          exact step own rest shown.1 whole size read (shorter _ less rest rfl)

theorem decodeFrom_of_tiles {position : Nat} {units : List UInt16}
    {instructions : List Instruction} (tiles : Tiles position units instructions)
    (more : List UInt16) :
    decodeFrom position (units ++ more) =
      (decodeFrom (position + units.length) more).map (instructions ++ ·) := by
  induction tiles with
  | @nil position =>
      rw [List.nil_append, List.length_nil, Nat.add_zero]
      cases decodeFrom position more <;> rfl
  | @cons position own rest body instructions whole size read following inductionHypothesis =>
      rw [List.append_assoc, decodeFrom_own whole read, inductionHypothesis, List.length_append,
        ← Nat.add_assoc]
      cases decodeFrom (position + own.length + rest.length) more <;> rfl

/-- Reading goes through exactly the bodies that are tiled. -/
theorem decodeFrom_eq_ok_iff {position : Nat} {units : List UInt16}
    {instructions : List Instruction} :
    decodeFrom position units = .ok instructions ↔ Tiles position units instructions := by
  constructor
  · intro success
    induction units using cut_induction generalizing position instructions with
    | empty =>
        rw [decodeFrom_nil] at success
        cases success
        exact .nil
    | step own rest body whole size read inductionHypothesis =>
        rw [decodeFrom_own whole read] at success
        cases later : decodeFrom (position + own.length) rest with
        | error stop =>
            rw [later] at success
            cases success
        | ok following =>
            rw [later] at success
            cases success
            exact .cons whole size read (inductionHypothesis later)
    | stuck units occupied nothing =>
        rw [decodeFrom_stuck occupied nothing] at success
        cases success
  · intro tiles
    have decoded := decodeFrom_of_tiles tiles []
    rw [List.append_nil, decodeFrom_nil] at decoded
    simpa [Except.map] using decoded

/-- Reading stops where no whole instruction begins. -/
theorem decodeFrom_eq_error_iff {position stop : Nat} {units : List UInt16} :
    decodeFrom position units = .error stop ↔
      ∃ front rest instructions, units = front ++ rest ∧ stop = position + front.length ∧
        Tiles position front instructions ∧ rest ≠ [] ∧ ∀ own, Whole own → ¬ own <+: rest := by
  constructor
  · intro failure
    induction units using cut_induction generalizing position with
    | empty =>
        rw [decodeFrom_nil] at failure
        cases failure
    | step own rest body whole size read inductionHypothesis =>
        rw [decodeFrom_own whole read] at failure
        cases later : decodeFrom (position + own.length) rest with
        | ok following =>
            rw [later] at failure
            cases failure
        | error place =>
            rw [later] at failure
            cases failure
            obtain ⟨front, behind, instructions, rfl, rfl, tiles, occupied, noWhole⟩ :=
              inductionHypothesis later
            refine ⟨own ++ front, behind, ⟨position, body⟩ :: instructions, ?_, ?_,
              .cons whole size read tiles, occupied, noWhole⟩
            · rw [List.append_assoc]
            · rw [List.length_append, Nat.add_assoc]
    | stuck units occupied nothing =>
        rw [decodeFrom_stuck occupied nothing] at failure
        cases failure
        exact ⟨[], units, [], rfl, rfl, .nil, occupied, read?_eq_none_iff.mp nothing⟩
  · rintro ⟨front, rest, instructions, rfl, rfl, tiles, occupied, noWhole⟩
    rw [decodeFrom_of_tiles tiles, decodeFrom_stuck occupied (read?_eq_none_iff.mpr noWhole)]
    rfl

end Instruction

/-! ## Places of instructions -/

namespace Tiles

open Instruction (moved stop)

variable {position : Nat} {units : List UInt16} {instructions : List Instruction}

theorem moved (offset : Nat) (tiles : Tiles position units instructions) :
    Tiles (offset + position) units (instructions.map (moved offset)) := by
  induction tiles with
  | nil => exact .nil
  | cons whole size read _ inductionHypothesis =>
      rw [← Nat.add_assoc] at inductionHypothesis
      exact .cons whole size read inductionHypothesis

theorem starts (tiles : Tiles position units instructions) :
    ∀ first ∈ instructions.head?, first.position = position := by
  cases tiles with
  | nil => nofun
  | cons =>
      rintro first ⟨⟩
      rfl

theorem start_le (tiles : Tiles position units instructions) :
    ∀ instruction ∈ instructions, position ≤ instruction.position := by
  induction tiles with
  | nil => nofun
  | cons _ _ _ _ inductionHypothesis =>
      intro instruction member
      rcases List.mem_cons.mp member with rfl | later
      · exact Nat.le_refl _
      · have behind := inductionHypothesis instruction later
        omega

theorem increase (tiles : Tiles position units instructions) :
    instructions.Pairwise fun earlier later => earlier.position < later.position := by
  induction tiles with
  | nil => exact .nil
  | @cons position own _ _ _ whole _ _ following inductionHypothesis =>
      refine .cons ?_ inductionHypothesis
      intro later member
      have positive := whole.length_pos
      have behind := following.start_le later member
      show position < later.position
      omega

theorem adjoin (tiles : Tiles position units instructions) :
    instructions.IsChain fun earlier later => stop earlier = later.position := by
  induction tiles with
  | nil => exact .nil
  | cons _ size _ following inductionHypothesis =>
      refine List.isChain_cons.mpr ⟨?_, inductionHypothesis⟩
      intro later next
      rw [following.starts later next, stop, size]

theorem ends (tiles : Tiles position units instructions) :
    ∀ last ∈ instructions.getLast?, stop last = position + units.length := by
  induction tiles with
  | nil => nofun
  | @cons position own rest body instructions _ size _ following inductionHypothesis =>
      intro last member
      rw [List.length_append, ← Nat.add_assoc]
      cases instructions with
      | nil =>
          cases following
          obtain rfl := Option.some.inj member
          show position + body.size = position + own.length + 0
          rw [size, Nat.add_zero]
      | cons next others =>
          rw [List.getLast?_cons_cons] at member
          exact inductionHypothesis last member

theorem own (tiles : Tiles position units instructions) :
    ∀ instruction ∈ instructions, ∃ front own back, units = front ++ own ++ back ∧
      instruction.position = position + front.length ∧ Whole own ∧
      instruction.body.size = own.length ∧
      ∀ others, Body.read? (own ++ others) = some (instruction.body, own.length) := by
  induction tiles with
  | nil => nofun
  | @cons position own rest body instructions whole size read _ inductionHypothesis =>
      intro instruction member
      rcases List.mem_cons.mp member with rfl | later
      · exact ⟨[], own, rest, rfl, rfl, whole, size, read⟩
      · obtain ⟨front, other, back, rfl, place, otherWhole⟩ :=
          inductionHypothesis instruction later
        refine ⟨own ++ front, other, back, ?_, ?_, otherWhole⟩
        · simp only [List.append_assoc]
        · rw [place, List.length_append, Nat.add_assoc]

end Tiles

/-- Instructions that cover all units of a body, in order and without overlaps, and each of which
depends on its own units alone. -/
structure Covers (instructions : List Instruction) (units : List UInt16) : Prop where
  starts : ∀ first ∈ instructions.head?, first.position = 0
  increase : instructions.Pairwise fun earlier later => earlier.position < later.position
  adjoin : instructions.IsChain fun earlier later => earlier.stop = later.position
  ends : ∀ last ∈ instructions.getLast?, last.stop = units.length
  complete : instructions = [] → units = []
  own : ∀ instruction ∈ instructions, ∃ front own back, units = front ++ own ++ back ∧
    instruction.position = front.length ∧ Whole own ∧ instruction.body.size = own.length ∧
    ∀ others, Body.read? (own ++ others) = some (instruction.body, own.length)

theorem Tiles.covers {units : List UInt16} {instructions : List Instruction}
    (tiles : Tiles 0 units instructions) : Covers instructions units where
  starts := tiles.starts
  increase := tiles.increase
  adjoin := tiles.adjoin
  ends := by simpa using tiles.ends
  complete := by
    rintro rfl
    cases tiles
    rfl
  own := by simpa using tiles.own

/-! ## Listings -/

structure Listed where
  position : Nat
  code : Nat
  mnemonic : String
  operands : String
deriving Repr, DecidableEq

def Instruction.listed (pool : ConstantPool) (instruction : Instruction) : Listed :=
  ⟨instruction.position, instruction.body.code, instruction.body.mnemonic,
    instruction.body.operandText pool⟩

def listCode (pool : ConstantPool) (start : Nat) (units : List UInt16) :
    Except Fault (List Listed) :=
  (decodeCode start units).map (·.map (Instruction.listed pool))

/-- A listing without what a container has to say about it. -/
def skeleton (listing : List Listed) : List (Nat × Nat × String) :=
  listing.map fun entry => (entry.position, entry.code, entry.mnemonic)

def openAt (start position : Nat) : Fault :=
  (Flaw.openInstruction position).fault (start + 16 + 2 * position)

theorem decodeCode_eq_ok_iff {start : Nat} {units : List UInt16}
    {instructions : List Instruction} :
    decodeCode start units = .ok instructions ↔ Tiles 0 units instructions := by
  rw [← Instruction.decodeFrom_eq_ok_iff, decodeCode, Instruction.decode]
  cases Instruction.decodeFrom 0 units <;> simp

theorem decodeCode_eq_error_iff {start : Nat} {units : List UInt16} {fault : Fault} :
    decodeCode start units = .error fault ↔
      ∃ position, Instruction.decodeFrom 0 units = .error position ∧
        fault = openAt start position := by
  rw [decodeCode, Instruction.decode]
  cases Instruction.decodeFrom 0 units <;> simp [openAt, eq_comm]

/-- The instructions of a body that can be read cover it: the first one starts at its first unit,
each one ends where the next one starts, and the last one ends with the body.  More units behind it
change nothing in that: they are read, or fail to be, as they would alone, only at positions behind
the body.  A failure is told at the position of the first instruction that does not fit, in units
and in octets behind the sixteen that stand in front of the code.  No container matters for
anything but the operands. -/
theorem listing_tiles_body (start : Nat) (units : List UInt16) :
    (∀ instructions, decodeCode start units = .ok instructions →
      Covers instructions units ∧
      ∀ more,
        (∀ others, decodeCode start more = .ok others →
          decodeCode start (units ++ more) =
            .ok (instructions ++ others.map (Instruction.moved units.length))) ∧
        ∀ fault, decodeCode start more = .error fault →
          ∃ position, fault = openAt start position ∧
            decodeCode start (units ++ more) = .error (openAt start (units.length + position))) ∧
    (∀ fault, decodeCode start units = .error fault ↔
      ∃ front rest instructions, units = front ++ rest ∧ fault = openAt start front.length ∧
        decodeCode start front = .ok instructions ∧ rest ≠ [] ∧
        ∀ own, Whole own → ¬ own <+: rest) ∧
    ∀ pool other : ConstantPool,
      (listCode pool start units).map skeleton = (listCode other start units).map skeleton := by
  refine ⟨?_, ?_, ?_⟩
  · intro instructions success
    have tiles := decodeCode_eq_ok_iff.mp success
    refine ⟨tiles.covers, ?_⟩
    intro more
    have joined := Instruction.decodeFrom_of_tiles tiles more
    rw [Nat.zero_add] at joined
    constructor
    · intro others read
      have behind := (decodeCode_eq_ok_iff.mp read).moved units.length
      rw [Nat.add_zero, ← Instruction.decodeFrom_eq_ok_iff] at behind
      rw [behind] at joined
      exact decodeCode_eq_ok_iff.mpr (Instruction.decodeFrom_eq_ok_iff.mp joined)
    · intro fault failure
      obtain ⟨position, stopped, rfl⟩ := decodeCode_eq_error_iff.mp failure
      obtain ⟨front, rest, before, rfl, rfl, fitting, occupied, noWhole⟩ :=
        Instruction.decodeFrom_eq_error_iff.mp stopped
      refine ⟨0 + front.length, rfl, ?_⟩
      have behind := fitting.moved units.length
      have stuck := Instruction.decodeFrom_eq_error_iff.mpr
        ⟨front, rest, _, rfl, rfl, behind, occupied, noWhole⟩
      rw [Nat.add_zero] at stuck
      rw [stuck] at joined
      refine decodeCode_eq_error_iff.mpr ⟨_, joined, ?_⟩
      rw [Nat.zero_add]
  · intro fault
    rw [decodeCode_eq_error_iff]
    constructor
    · rintro ⟨position, stopped, rfl⟩
      obtain ⟨front, rest, before, rfl, rfl, fitting, occupied, noWhole⟩ :=
        Instruction.decodeFrom_eq_error_iff.mp stopped
      rw [Nat.zero_add]
      exact ⟨front, rest, before, rfl, rfl, decodeCode_eq_ok_iff.mpr fitting, occupied, noWhole⟩
    · rintro ⟨front, rest, before, rfl, rfl, success, occupied, noWhole⟩
      refine ⟨front.length, ?_, rfl⟩
      exact Instruction.decodeFrom_eq_error_iff.mpr ⟨front, rest, before, rfl,
        (Nat.zero_add _).symm, decodeCode_eq_ok_iff.mp success, occupied, noWhole⟩
  · intro pool other
    rw [listCode, listCode]
    cases decodeCode start units with
    | error fault => rfl
    | ok instructions => simp [Except.map, skeleton, Instruction.listed]

end ByteListing.Dex
