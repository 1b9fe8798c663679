import ByteListing.Proofs.Text.Blocks
import ByteListing.Proofs.Wire.FieldText
import ByteListing.Proofs.Wire.Scopes

/-! # Listings without types can be read in one way

Byte strings with the same listing are `Alike`: they hold the same fields and end in the same
octets that are no field, and where payloads differ, both are shown as blocks and are alike
again.  Nothing more can be told from a listing, because the octets of a varint that are not
needed are not shown.

The listing is read from its first line on.  A field begins with a digit, the end of a block
with a brace and what is no field with a backtick, so that it shows where the fields of a block
stop; and a block gives back the listing behind it, whatever that is, from which the
fields after it are read. -/
set_option autoImplicit false
namespace ByteListing.Wire

open ByteListing.Listing (Closing IsBlank IsEnd isEnd_remainderLines isText_brace line_ne_end
  print print_append_inj print_cons_inj remainderLines remainder_of_print_eq)
open ByteListing.Schema (MessageType)

mutual

/-- Byte strings whose listings without types, from a level on, hold the same. -/
inductive Alike (maxDepth : Nat) : (level : Nat) → (first second : Bytes) → Prop
  | intro {level : Nat} {first second : Bytes} :
      FieldsAlike maxDepth level [] ((Field.parseAll first).1.map Prod.fst)
        ((Field.parseAll second).1.map Prod.fst) →
      (Field.parseAll first).2 = (Field.parseAll second).2 → Alike maxDepth level first second

inductive FieldsAlike (maxDepth : Nat) :
    (level : Nat) → (opened : List Nat) → (first second : List Field) → Prop
  | nil {level : Nat} {opened : List Nat} : FieldsAlike maxDepth level opened [] []
  | cons {level : Nat} {opened : List Nat} {field other : Field} {rest others : List Field} :
      FieldAlike maxDepth (level + opened.length) field other →
      FieldsAlike maxDepth level (openAfter opened [field]) rest others →
      FieldsAlike maxDepth level opened (field :: rest) (other :: others)

/-- Equal fields, and payloads of one number and one length that are both shown as blocks and
are alike in them. -/
inductive FieldAlike (maxDepth : Nat) : (level : Nat) → (first second : Field) → Prop
  | same {level : Nat} {field : Field} : FieldAlike maxDepth level field field
  | nested {level number : Nat} {first second : Bytes} :
      first.length = second.length →
      OpensBlock (level < maxDepth) first → OpensBlock (level < maxDepth) second →
      Alike maxDepth (level + 1) first second →
      FieldAlike maxDepth level ⟨number, .lengthDelimited first⟩ ⟨number, .lengthDelimited second⟩

end

theorem openAfter_alike {maxDepth level : Nat} {field other : Field}
    (alike : FieldAlike maxDepth level field other) (opened : List Nat) :
    openAfter opened [field] = openAfter opened [other] := by
  cases alike with
  | same => rfl
  | nested => rfl

/-! ## The lines of undeclared fields -/

def undeclared (opened : List Nat) : Scopes := opened.map fun number => (number, none)

theorem undeclared_eq_scopesInside (opened : List Nat) :
    undeclared opened = scopesInside {} none opened := by
  induction opened with
  | nil => rfl
  | cons innermost outer inductionHypothesis =>
      rw [scopesInside, messageInside_none, ← inductionHypothesis]
      rfl

section Undeclared

variable (maxDepth base : Nat) (inner : (level : Nat) → Option MessageType → Bytes → List Entry)

def fieldLines (opened : List Nat) (fields : List Field) : List Line :=
  Entry.linesOf (entriesOf {} maxDepth base inner none (undeclared opened) fields)

theorem fieldLines_cons (opened : List Nat) (field : Field) (rest : List Field) :
    ∃ level, fieldLines maxDepth base inner opened (field :: rest) =
      ⟨level, fieldText (base + opened.length < maxDepth) field⟩ ::
        (blockLines maxDepth (base + opened.length) inner field.value ++
          fieldLines maxDepth base inner (openAfter opened [field]) rest) := by
  refine ⟨base + depthInside opened field, ?_⟩
  rw [fieldLines, fieldLines, undeclared_eq_scopesInside, undeclared_eq_scopesInside,
    entriesOf_cons, declaredInside_none, Entry.linesOf, lines_entryOf]
  obtain ⟨number, value⟩ := field
  cases value with
  | endGroup =>
      -- It stands at the level of its start, but has no detail that could depend on the level.
      rfl
  | _ => rfl

end Undeclared

/-! ## Reading listings -/

def innerEntries (maxDepth base level : Nat) (message : Option MessageType) (payload : Bytes) :
    List Entry :=
  if _ : base ≤ level ∧ level < maxDepth then entries {} maxDepth (level + 1) message payload
  else []

theorem payloadEntries_undeclared (maxDepth base : Nat) :
    payloadEntries {} maxDepth base = innerEntries maxDepth base := rfl

section Reading

variable {indent : String} (blank : IsBlank indent)
include blank

theorem field_ne_end {mayNest : Bool} {level : Nat} {field : Field} {rest others : List Line}
    (isEnd : IsEnd others) :
    print indent (⟨level, fieldText mayNest field⟩ :: rest) ≠ print indent others := by
  obtain ⟨first, behind, begins, isDigit⟩ := fieldText_eq mayNest field
  refine line_ne_end blank (isText_fieldText mayNest field) ⟨first, behind, begins, ?_, ?_⟩ isEnd
  · rintro rfl
    cases isDigit
  · rintro rfl
    cases isDigit

section Block

variable {maxDepth base : Nat} {inner : (level : Nat) → Option MessageType → Bytes → List Entry}
  (innerAlike : ∀ {level lineLevel otherLevel : Nat} {first second : Bytes}
    {rest others : List Line}, base ≤ level → level < maxDepth →
    print indent (Entry.linesOf (inner level none first) ++ ⟨lineLevel, "\x7d"⟩ :: rest) =
      print indent (Entry.linesOf (inner level none second) ++ ⟨otherLevel, "\x7d"⟩ :: others) →
    Alike maxDepth (level + 1) first second ∧ print indent rest = print indent others)
include innerAlike

theorem fieldAlike_of_print_eq {level lineLevel otherLevel : Nat} (deep : base ≤ level)
    {field other : Field} {rest others : List Line}
    (same : print indent (⟨lineLevel, fieldText (level < maxDepth) field⟩ ::
        (blockLines maxDepth level inner field.value ++ rest)) =
      print indent (⟨otherLevel, fieldText (level < maxDepth) other⟩ ::
        (blockLines maxDepth level inner other.value ++ others))) :
    FieldAlike maxDepth level field other ∧ print indent rest = print indent others := by
  obtain ⟨texts, following⟩ := print_cons_inj blank (isText_fieldText ..) (isText_fieldText ..) same
  obtain ⟨numbers, details⟩ := sameDetail_of_fieldText texts
  obtain ⟨number, value⟩ := field
  obtain ⟨otherNumber, otherValue⟩ := other
  obtain rfl : number = otherNumber := numbers
  cases details with
  | same => exact ⟨.same, print_append_inj following⟩
  | nested lengths opens otherOpens =>
      simp only [blockLines_block opens, blockLines_block otherOpens, List.append_assoc,
        List.singleton_append] at following
      have shallow : level < maxDepth := of_decide_eq_true (mayNest_of_opensBlock opens)
      obtain ⟨alike, behind⟩ := innerAlike deep shallow following
      exact ⟨.nested lengths opens otherOpens alike, behind⟩

theorem fieldsAlike_of_print_eq {fields others : List Field} (opened : List Nat)
    {rest behind : List Line} (isEnd : IsEnd rest) (otherEnd : IsEnd behind)
    (same : print indent (fieldLines maxDepth base inner opened fields ++ rest) =
      print indent (fieldLines maxDepth base inner opened others ++ behind)) :
    FieldsAlike maxDepth base opened fields others ∧ print indent rest = print indent behind := by
  induction fields generalizing opened others with
  | nil =>
      cases others with
      | nil => exact ⟨.nil, same⟩
      | cons other others =>
          obtain ⟨level, listed⟩ := fieldLines_cons maxDepth base inner opened other others
          rw [listed] at same
          exact absurd same.symm (field_ne_end blank isEnd)
  | cons field fields inductionHypothesis =>
      obtain ⟨level, listed⟩ := fieldLines_cons maxDepth base inner opened field fields
      rw [listed] at same
      cases others with
      | nil => exact absurd same (field_ne_end blank otherEnd)
      | cons other others =>
          obtain ⟨otherLevel, otherListed⟩ :=
            fieldLines_cons maxDepth base inner opened other others
          rw [otherListed] at same
          simp only [List.cons_append, List.append_assoc] at same
          obtain ⟨alike, following⟩ := fieldAlike_of_print_eq blank innerAlike
            (Nat.le_add_right ..) same
          rw [← openAfter_alike alike] at following
          obtain ⟨later, after⟩ := inductionHypothesis _ following
          exact ⟨.cons alike later, after⟩

end Block

/-- A listing at a level gives back what it lists and what follows it. -/
theorem alike_of_print_eq {maxDepth level : Nat} {first second : Bytes} {rest others : List Line}
    (closing : Closing rest) (otherClosing : Closing others)
    (same : print indent (Entry.linesOf (entries {} maxDepth level none first) ++ rest) =
      print indent (Entry.linesOf (entries {} maxDepth level none second) ++ others)) :
    Alike maxDepth level first second ∧ print indent rest = print indent others := by
  rw [linesOf_entries, linesOf_entries, payloadEntries_undeclared, List.append_assoc,
    List.append_assoc] at same
  -- A block is listed one level deeper, within the limit, which is where the recursion ends.
  have innerAlike {depth lineLevel otherLevel : Nat} {first second : Bytes}
      {rest others : List Line} (deep : level ≤ depth) (shallow : depth < maxDepth)
      (same : print indent (Entry.linesOf (innerEntries maxDepth level depth none first) ++
          ⟨lineLevel, "\x7d"⟩ :: rest) =
        print indent (Entry.linesOf (innerEntries maxDepth level depth none second) ++
          ⟨otherLevel, "\x7d"⟩ :: others)) :
      Alike maxDepth (depth + 1) first second ∧ print indent rest = print indent others := by
    rw [innerEntries, innerEntries, dif_pos ⟨deep, shallow⟩, dif_pos ⟨deep, shallow⟩] at same
    obtain ⟨alike, following⟩ := alike_of_print_eq .block .block same
    exact ⟨alike, (print_cons_inj blank isText_brace isText_brace following).2⟩
  obtain ⟨fields, following⟩ := fieldsAlike_of_print_eq blank innerAlike []
    (isEnd_remainderLines _ _ closing) (isEnd_remainderLines _ _ otherClosing) same
  obtain ⟨remainders, behind⟩ := remainder_of_print_eq blank closing otherClosing following
  exact ⟨.intro fields remainders, behind⟩
termination_by maxDepth - level
decreasing_by omega

end Reading

/-- With an indentation made of blanks alone, byte strings that are listed in the same way
without a type are alike: they hold the same fields in the same order and the same octets that
are no field, and payloads may differ only inside of blocks, where they are alike again. -/
theorem alike_of_render_eq {layout : Layout} (blank : IsBlank layout.indent)
    {first second : Bytes}
    (same : render layout {} none first = render layout {} none second) :
    Alike layout.maxDepth 0 first second := by
  rw [render, render, listing, listing, ← List.append_nil (Entry.linesOf _),
    ← List.append_nil (Entry.linesOf (entries _ _ _ _ second))] at same
  exact (alike_of_print_eq blank .whole .whole same).1

/-- Two payloads that differ in which of their varints takes an octet too many. -/
theorem alike_padded_varints :
    IsBlank "  " ∧
    render ⟨"  ", 64⟩ {} none [0x0A, 5, 0x08, 0x81, 0x00, 0x10, 0x01] =
      render ⟨"  ", 64⟩ {} none [0x0A, 5, 0x08, 0x01, 0x10, 0x81, 0x00] ∧
    Alike 64 0 [0x0A, 5, 0x08, 0x81, 0x00, 0x10, 0x01]
      [0x0A, 5, 0x08, 0x01, 0x10, 0x81, 0x00] := by
  have blank : IsBlank (Layout.mk "  " 64).indent := by
    intro c member
    have blanks : c ∈ List.replicate 2 ' ' := member
    exact List.eq_of_mem_replicate blanks
  have same : render ⟨"  ", 64⟩ {} none [0x0A, 5, 0x08, 0x81, 0x00, 0x10, 0x01] =
      render ⟨"  ", 64⟩ {} none [0x0A, 5, 0x08, 0x01, 0x10, 0x81, 0x00] := by
    decide +kernel
  exact ⟨blank, same, alike_of_render_eq blank same⟩

end ByteListing.Wire
