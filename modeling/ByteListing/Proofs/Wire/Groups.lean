import ByteListing.Proofs.Wire.Field
import ByteListing.Wire.Listing

/-! # Balanced groups

A message is a sequence of items: fields that are no groups, and groups, which hold items
between a start and an end of the same number.  `Items` says this of octets and `Balanced` of
fields that were read already.

The test for messages keeps a stack of open groups.  `Closes` describes what may still come for
a given stack, and `closes_of_groupsBalance` and `groupsBalance_append` tie the stack to the
grammar.  The listing keeps a stack of its own; over balanced fields it comes back to where it
was (`openAfter_balanced`), so that every group ends at the level at which it started. -/
set_option autoImplicit false
namespace ByteListing.Wire

def Field.IsPlain (field : Field) : Prop :=
  field.value ≠ .startGroup ∧ field.value ≠ .endGroup

inductive Items : Bytes → Prop
  | nil : Items []
  | field {field : Field} {octets rest : Bytes} :
      Field.parse octets = .ok (field, octets.length) → field.IsPlain → Items rest →
      Items (octets ++ rest)
  /-- A group: its start, items, and its end with the same number. -/
  | group {number : Nat} {start inner stop rest : Bytes} :
      Field.parse start = .ok (⟨number, .startGroup⟩, start.length) → Items inner →
      Field.parse stop = .ok (⟨number, .endGroup⟩, stop.length) → Items rest →
      Items (start ++ inner ++ stop ++ rest)

/-- Fields in which every group ends, and with its own number. -/
inductive Balanced : List Field → Prop
  | nil : Balanced []
  | plain {field : Field} {rest : List Field} :
      field.IsPlain → Balanced rest → Balanced (field :: rest)
  | group {number : Nat} {inner rest : List Field} : Balanced inner → Balanced rest →
      Balanced (⟨number, .startGroup⟩ :: (inner ++ ⟨number, .endGroup⟩ :: rest))

/-! ## The stack of open groups -/

/-- Fields that end the groups of a stack, innermost first, and are balanced otherwise. -/
def Closes : (opened : List Nat) → List Field → Prop
  | [], fields => Balanced fields
  | innermost :: outer, fields =>
    ∃ inner rest, fields = inner ++ ⟨innermost, .endGroup⟩ :: rest ∧ Balanced inner ∧
      Closes outer rest

theorem Closes.plain {opened : List Nat} {field : Field} {rest : List Field}
    (isPlain : field.IsPlain) (closes : Closes opened rest) : Closes opened (field :: rest) := by
  cases opened with
  | nil => exact Balanced.plain isPlain closes
  | cons innermost outer =>
      obtain ⟨inner, after, rfl, balanced, later⟩ := closes
      exact ⟨field :: inner, after, rfl, .plain isPlain balanced, later⟩

theorem Closes.group {opened : List Nat} {number : Nat} {rest : List Field}
    (closes : Closes (number :: opened) rest) :
    Closes opened (⟨number, .startGroup⟩ :: rest) := by
  obtain ⟨inner, after, rfl, balanced, later⟩ := closes
  cases opened with
  | nil => exact Balanced.group balanced later
  | cons innermost outer =>
      obtain ⟨second, behind, rfl, secondBalanced, last⟩ := later
      refine ⟨⟨number, .startGroup⟩ :: (inner ++ ⟨number, .endGroup⟩ :: second), behind, ?_,
        .group balanced secondBalanced, last⟩
      simp only [List.cons_append, List.append_assoc]

theorem groupsBalance_plain {field : Field} (isPlain : field.IsPlain) (opened : List Nat)
    (rest : List Field) : groupsBalance opened (field :: rest) = groupsBalance opened rest := by
  obtain ⟨number, value⟩ := field
  cases value with
  | startGroup => exact absurd rfl isPlain.1
  | endGroup => exact absurd rfl isPlain.2
  | varint value => rfl
  | fixed64 value => rfl
  | lengthDelimited payload => rfl
  | fixed32 value => rfl

theorem groupsBalance_start (number : Nat) (opened : List Nat) (rest : List Field) :
    groupsBalance opened (⟨number, .startGroup⟩ :: rest) = groupsBalance (number :: opened) rest :=
  rfl

theorem groupsBalance_end (number : Nat) (opened : List Nat) (rest : List Field) :
    groupsBalance (number :: opened) (⟨number, .endGroup⟩ :: rest) = groupsBalance opened rest := by
  simp only [groupsBalance, beq_self_eq_true, Bool.true_and]

theorem closes_of_groupsBalance {opened : List Nat} {fields : List Field}
    (success : groupsBalance opened fields = true) : Closes opened fields := by
  induction fields generalizing opened with
  | nil =>
      obtain rfl := List.isEmpty_iff.mp success
      exact Balanced.nil
  | cons field rest inductionHypothesis =>
      by_cases isPlain : field.IsPlain
      · rw [groupsBalance_plain isPlain] at success
        exact (inductionHypothesis success).plain isPlain
      · obtain ⟨number, value⟩ := field
        cases value with
        | startGroup => exact (inductionHypothesis success).group
        | endGroup =>
            cases opened with
            | nil => cases success
            | cons innermost outer =>
                simp only [groupsBalance, Bool.and_eq_true, beq_iff_eq] at success
                obtain ⟨rfl, later⟩ := success
                exact ⟨[], rest, rfl, .nil, inductionHypothesis later⟩
        | varint value => exact absurd ⟨nofun, nofun⟩ isPlain
        | fixed64 value => exact absurd ⟨nofun, nofun⟩ isPlain
        | lengthDelimited payload => exact absurd ⟨nofun, nofun⟩ isPlain
        | fixed32 value => exact absurd ⟨nofun, nofun⟩ isPlain

/-- Balanced fields leave the stack of the test as it was. -/
theorem groupsBalance_append {fields : List Field} (balanced : Balanced fields)
    (opened : List Nat) (rest : List Field) :
    groupsBalance opened (fields ++ rest) = groupsBalance opened rest := by
  induction balanced generalizing opened rest with
  | nil => rfl
  | plain isPlain _ inductionHypothesis =>
      rw [List.cons_append, groupsBalance_plain isPlain, inductionHypothesis]
  | @group number inner after _ _ innerHypothesis afterHypothesis =>
      rw [List.cons_append, List.append_assoc, List.cons_append, groupsBalance_start,
        innerHypothesis, groupsBalance_end, afterHypothesis]

theorem groupsBalance_iff {fields : List Field} :
    groupsBalance [] fields = true ↔ Balanced fields := by
  constructor
  · exact closes_of_groupsBalance
  · intro balanced
    have accepted := groupsBalance_append balanced [] []
    rwa [List.append_nil] at accepted

/-! ## Octets and fields -/

theorem Field.Sequence.split {first second : List Field} {data : Bytes}
    (sequence : Field.Sequence (first ++ second) data) :
    ∃ front back, data = front ++ back ∧ Field.Sequence first front ∧
      Field.Sequence second back := by
  induction first generalizing data with
  | nil => exact ⟨[], data, rfl, .nil, sequence⟩
  | cons field rest inductionHypothesis =>
      cases sequence with
      | cons written later =>
          obtain ⟨front, back, rfl, frontSequence, backSequence⟩ := inductionHypothesis later
          exact ⟨_ ++ front, back, (List.append_assoc ..).symm, .cons written frontSequence,
            backSequence⟩

theorem Field.Sequence.append {first second : List Field} {front back : Bytes}
    (frontSequence : Field.Sequence first front) (backSequence : Field.Sequence second back) :
    Field.Sequence (first ++ second) (front ++ back) := by
  induction frontSequence with
  | nil => exact backSequence
  | cons written _ inductionHypothesis =>
      rw [List.append_assoc]
      exact .cons written inductionHypothesis

theorem items_of_sequence {fields : List Field} (balanced : Balanced fields) {data : Bytes}
    (sequence : Field.Sequence fields data) : Items data := by
  induction balanced generalizing data with
  | nil =>
      cases sequence
      exact .nil
  | plain isPlain _ inductionHypothesis =>
      cases sequence with
      | cons written later =>
          exact .field (Field.parse_eq_iff_octets.mpr written) isPlain
            (inductionHypothesis later)
  | group _ _ innerHypothesis restHypothesis =>
      cases sequence with
      | cons startWritten later =>
          obtain ⟨front, back, rfl, innerSequence, backSequence⟩ := later.split
          cases backSequence with
          | cons stopWritten restSequence =>
              have items := Items.group (Field.parse_eq_iff_octets.mpr startWritten)
                (innerHypothesis innerSequence) (Field.parse_eq_iff_octets.mpr stopWritten)
                (restHypothesis restSequence)
              simpa only [List.append_assoc] using items

theorem sequence_of_items {data : Bytes} (items : Items data) :
    ∃ fields, Field.Sequence fields data ∧ Balanced fields := by
  induction items with
  | nil => exact ⟨[], .nil, .nil⟩
  | @field field octets rest parsed isPlain _ inductionHypothesis =>
      obtain ⟨fields, sequence, balanced⟩ := inductionHypothesis
      exact ⟨field :: fields, .cons (Field.parse_eq_iff_octets.mp parsed) sequence,
        .plain isPlain balanced⟩
  | @group number _ _ _ _ startParsed _ stopParsed _ innerHypothesis restHypothesis =>
      obtain ⟨inner, innerSequence, innerBalanced⟩ := innerHypothesis
      obtain ⟨rest, restSequence, restBalanced⟩ := restHypothesis
      refine ⟨⟨number, .startGroup⟩ :: (inner ++ ⟨number, .endGroup⟩ :: rest), ?_,
        .group innerBalanced restBalanced⟩
      have startWritten := Field.parse_eq_iff_octets.mp startParsed
      have stopWritten := Field.parse_eq_iff_octets.mp stopParsed
      rw [List.append_assoc, List.append_assoc]
      exact .cons startWritten (innerSequence.append (.cons stopWritten restSequence))

theorem isMessage_iff_balanced {data : Bytes} :
    isMessage data = true ↔ (Field.parseAll data).1 ≠ [] ∧ (Field.parseAll data).2 = [] ∧
      Balanced ((Field.parseAll data).1.map Prod.fst) := by
  rw [isMessage]
  simp only [Bool.and_eq_true, Bool.not_eq_true', List.isEmpty_eq_false_iff, List.isEmpty_iff,
    groupsBalance_iff, and_assoc]

theorem isMessage_iff_items {data : Bytes} :
    isMessage data = true ↔ data ≠ [] ∧ Items data := by
  rw [isMessage_iff_balanced]
  constructor
  · rintro ⟨someFields, nothingLeft, balanced⟩
    obtain ⟨front, whole, sequence⟩ := Field.sequence_of_parseAll data
    rw [nothingLeft, List.append_nil] at whole
    rw [← whole] at sequence
    refine ⟨?_, items_of_sequence balanced sequence⟩
    rintro rfl
    rw [Field.parseAll] at someFields
    exact someFields rfl
  · rintro ⟨occupied, items⟩
    obtain ⟨fields, sequence, balanced⟩ := sequence_of_items items
    have read := Field.parseAll_append sequence []
    rw [Field.parseAll_nil, List.append_nil, List.map_nil, List.append_nil] at read
    obtain ⟨fieldsRead, nothingLeft⟩ := Prod.mk.inj read
    rw [fieldsRead]
    refine ⟨?_, nothingLeft, balanced⟩
    intro noFields
    rw [noFields, List.map_nil] at fieldsRead
    subst fieldsRead
    cases sequence
    exact occupied rfl

end ByteListing.Wire
