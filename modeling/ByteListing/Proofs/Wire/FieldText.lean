import ByteListing.Proofs.Text.Lines
import ByteListing.Proofs.Text.Quoted
import ByteListing.Proofs.Wire.Scopes

/-! # The line of an undeclared field

The line of a field that no message type declares is its number and wire type and, behind them,
its `detail`.  The number and the wire type can be read off the line, and with them the detail;
the detail gives the value, except that of a payload in a block it gives the length alone. -/
set_option autoImplicit false
namespace ByteListing.Wire

open ByteListing.Listing (IsText no_feed_append)

/-! ## Number and wire type -/

theorem WireType.two_le_length_name (wireType : WireType) : 2 ≤ wireType.name.toList.length := by
  cases wireType <;> decide

theorem WireType.eq_of_take_name {first second : WireType}
    (same : first.name.toList.take 2 = second.name.toList.take 2) : first = second := by
  revert same
  cases first <;> cases second <;> decide

theorem WireType.name_append_inj {first second : WireType} {rest others : List Char}
    (same : first.name.toList ++ rest = second.name.toList ++ others) :
    first = second ∧ rest = others := by
  have beginnings := congrArg (List.take 2) same
  rw [List.take_append_of_le_length first.two_le_length_name,
    List.take_append_of_le_length second.two_le_length_name] at beginnings
  obtain rfl := eq_of_take_name beginnings
  exact ⟨rfl, List.append_cancel_left same⟩

theorem toList_head (number : Nat) (wireType : WireType) :
    (Entry.head number wireType).toList =
      (toString number).toList ++ ':' :: wireType.name.toList := by
  simp only [Entry.head, String.toList_append, List.append_assoc]
  rfl

theorem head_append_inj {number other : Nat} {wireType otherType : WireType}
    {rest others : String}
    (same : Entry.head number wireType ++ rest = Entry.head other otherType ++ others) :
    number = other ∧ wireType = otherType ∧ rest = others := by
  have listed := congrArg String.toList same
  simp only [String.toList_append, toList_head, List.append_assoc, List.cons_append] at listed
  obtain ⟨rfl, named⟩ := toString_append_inj (by decide) listed
  obtain ⟨rfl, following⟩ := WireType.name_append_inj named
  exact ⟨rfl, rfl, String.toList_inj.mp following⟩

/-! ## Payloads on one line -/

theorem inline_cases {mayNest : Bool} {payload : Bytes} {text : String}
    (shown : payloadForm {} mayNest none payload = .inline text) :
    (payload = [] ∧ text = "") ∨ text = Quoted.ofBytes payload ∨ text = Hex.literal payload := by
  simp only [payloadForm, undeclaredForm] at shown
  split at shown
  · rename_i empty
    cases shown
    exact .inl ⟨List.isEmpty_iff.mp empty, rfl⟩
  · split at shown
    · cases shown
      exact .inr (.inl rfl)
    · split at shown
      · cases shown
      · cases shown
        exact .inr (.inr rfl)

theorem quoted_ne_empty (data : Bytes) : Quoted.ofBytes data ≠ "" := by
  intro same
  have listed := congrArg String.toList same
  rw [Quoted.toList_ofBytes] at listed
  cases listed

theorem literal_ne_empty (data : Bytes) : Hex.literal data ≠ "" := by
  intro same
  have listed := congrArg String.toList same
  rw [Hex.toList_literal] at listed
  cases listed

theorem inline_inj {mayNest : Bool} {first second : Bytes} {text : String}
    (firstShown : payloadForm {} mayNest none first = .inline text)
    (secondShown : payloadForm {} mayNest none second = .inline text) : first = second := by
  obtain ⟨rfl, rfl⟩ | rfl | rfl := inline_cases firstShown
  · obtain ⟨rfl, -⟩ | same | same := inline_cases secondShown
    · rfl
    · exact absurd same.symm (quoted_ne_empty _)
    · exact absurd same.symm (literal_ne_empty _)
  · obtain ⟨-, same⟩ | same | same := inline_cases secondShown
    · exact absurd same (quoted_ne_empty _)
    · exact Quoted.ofBytes_inj same
    · exact absurd same (Quoted.ofBytes_ne_literal _ _)
  · obtain ⟨-, same⟩ | same | same := inline_cases secondShown
    · exact absurd same (literal_ne_empty _)
    · exact absurd same.symm (Quoted.ofBytes_ne_literal _ _)
    · exact Hex.literal_inj same

theorem no_feed_inline {mayNest : Bool} {payload : Bytes} {text : String}
    (shown : payloadForm {} mayNest none payload = .inline text) : '\n' ∉ text.toList := by
  obtain ⟨-, rfl⟩ | rfl | rfl := inline_cases shown
  · decide
  · exact Quoted.no_feed_ofBytes payload
  · exact Hex.no_feed_literal payload

/-! ## Details -/

def bracketed (mayNest : Bool) (payload : Bytes) : String :=
  match payloadForm {} mayNest none payload with
  | .inline text => " \x7b" ++ text ++ "\x7d"
  | .nested _ => " \x7b"

def detail (mayNest : Bool) : FieldValue → String
  | .varint value => " " ++ toString value
  | .fixed64 value => " " ++ (toString value ++ "i64")
  | .fixed32 value => " " ++ (toString value ++ "i32")
  | .lengthDelimited payload => " " ++ (toString payload.length ++ bracketed mayNest payload)
  | .startGroup | .endGroup => ""

def OpensBlock (mayNest : Bool) (payload : Bytes) : Prop :=
  payloadForm {} mayNest none payload = .nested none

/-- Values whose lines cannot be told apart: equal values, and payloads of one length that both
open a block. -/
inductive SameDetail (mayNest : Bool) : FieldValue → FieldValue → Prop
  | same {value : FieldValue} : SameDetail mayNest value value
  | nested {first second : Bytes} :
      first.length = second.length → OpensBlock mayNest first → OpensBlock mayNest second →
      SameDetail mayNest (.lengthDelimited first) (.lengthDelimited second)

theorem opensBlock_of_nested {mayNest : Bool} {payload : Bytes}
    {message : Option Schema.MessageType}
    (shown : payloadForm {} mayNest none payload = .nested message) :
    OpensBlock mayNest payload := by
  obtain ⟨-, -, rfl⟩ := nests_of_payloadForm shown
  exact shown

theorem mayNest_of_opensBlock {mayNest : Bool} {payload : Bytes}
    (opens : OpensBlock mayNest payload) : mayNest = true :=
  (nests_of_payloadForm opens).allowed

theorem bracketed_inline {mayNest : Bool} {payload : Bytes} {text : String}
    (shown : payloadForm {} mayNest none payload = .inline text) :
    (bracketed mayNest payload).toList = ' ' :: '\x7b' :: (text.toList ++ ['\x7d']) := by
  simp only [bracketed, shown, String.toList_append]
  rfl

theorem bracketed_nested {mayNest : Bool} {payload : Bytes} {message : Option Schema.MessageType}
    (shown : payloadForm {} mayNest none payload = .nested message) :
    (bracketed mayNest payload).toList = [' ', '\x7b'] := by
  simp only [bracketed, shown]
  rfl

theorem bracketed_eq (mayNest : Bool) (payload : Bytes) :
    ∃ rest, (bracketed mayNest payload).toList = ' ' :: rest := by
  cases shown : payloadForm {} mayNest none payload with
  | inline text => exact ⟨_, bracketed_inline shown⟩
  | nested message => exact ⟨_, bracketed_nested shown⟩

theorem sameDetail_of_bracketed {mayNest : Bool} {first second : Bytes}
    (lengths : first.length = second.length)
    (same : bracketed mayNest first = bracketed mayNest second) :
    SameDetail mayNest (.lengthDelimited first) (.lengthDelimited second) := by
  have listed := congrArg String.toList same
  cases firstShown : payloadForm {} mayNest none first with
  | inline text =>
      rw [bracketed_inline firstShown] at listed
      cases secondShown : payloadForm {} mayNest none second with
      | inline other =>
          rw [bracketed_inline secondShown] at listed
          have texts := List.append_cancel_right (List.cons.inj (List.cons.inj listed).2).2
          obtain rfl := String.toList_inj.mp texts
          obtain rfl := inline_inj firstShown secondShown
          exact .same
      | nested message =>
          rw [bracketed_nested secondShown] at listed
          simp at listed
  | nested message =>
      rw [bracketed_nested firstShown] at listed
      cases secondShown : payloadForm {} mayNest none second with
      | inline other =>
          rw [bracketed_inline secondShown] at listed
          simp at listed
      | nested other =>
          exact .nested lengths (opensBlock_of_nested firstShown)
            (opensBlock_of_nested secondShown)

theorem number_suffix_inj {value other : Nat} {suffix : String}
    (same : " " ++ (toString value ++ suffix) = " " ++ (toString other ++ suffix)) :
    value = other := by
  have listed := congrArg String.toList same
  simp only [String.toList_append, List.append_cancel_left_eq, List.append_cancel_right_eq]
    at listed
  exact toString_inj (String.toList_inj.mp listed)

theorem sameDetail_of_detail {mayNest : Bool} {value other : FieldValue}
    (wireTypes : value.wireType = other.wireType)
    (same : detail mayNest value = detail mayNest other) : SameDetail mayNest value other := by
  cases value <;> cases other <;> cases wireTypes
  case varint value other =>
      have listed := congrArg String.toList same
      simp only [detail, String.toList_append, List.append_cancel_left_eq] at listed
      obtain rfl := toString_inj (String.toList_inj.mp listed)
      exact .same
  case fixed64 value other =>
      obtain rfl := number_suffix_inj same
      exact .same
  case fixed32 value other =>
      obtain rfl := number_suffix_inj same
      exact .same
  case startGroup => exact .same
  case endGroup => exact .same
  case lengthDelimited first second =>
      obtain ⟨rest, firstRest⟩ := bracketed_eq mayNest first
      obtain ⟨others, secondRest⟩ := bracketed_eq mayNest second
      have listed := congrArg String.toList same
      simp only [detail, String.toList_append, List.append_cancel_left_eq, firstRest,
        secondRest] at listed
      obtain ⟨lengths, following⟩ := toString_append_inj (by decide) listed
      refine sameDetail_of_bracketed lengths (String.toList_inj.mp ?_)
      rw [firstRest, secondRest, following]

theorem no_feed_toString (value : Nat) : '\n' ∉ (toString value).toList :=
  not_mem_toString value (by decide)

theorem no_feed_bracketed (mayNest : Bool) (payload : Bytes) :
    '\n' ∉ (bracketed mayNest payload).toList := by
  rw [bracketed]
  split
  · rename_i shown
    exact no_feed_append (no_feed_append (by decide) (no_feed_inline shown)) (by decide)
  · decide

theorem no_feed_detail (mayNest : Bool) (value : FieldValue) :
    '\n' ∉ (detail mayNest value).toList := by
  cases value with
  | varint value => exact no_feed_append (by decide) (no_feed_toString value)
  | fixed64 value =>
      exact no_feed_append (by decide) (no_feed_append (no_feed_toString value) (by decide))
  | fixed32 value =>
      exact no_feed_append (by decide) (no_feed_append (no_feed_toString value) (by decide))
  | startGroup => exact List.not_mem_nil
  | endGroup => exact List.not_mem_nil
  | lengthDelimited payload =>
      exact no_feed_append (by decide)
        (no_feed_append (no_feed_toString payload.length) (no_feed_bracketed mayNest payload))

theorem no_feed_head (number : Nat) (wireType : WireType) :
    '\n' ∉ (Entry.head number wireType).toList := by
  have noNameFeed : '\n' ∉ wireType.name.toList := by
    cases wireType <;> decide
  exact no_feed_append (no_feed_append (no_feed_toString number) (by decide)) noNameFeed

/-! ## Lines -/

def fieldText (mayNest : Bool) (field : Field) : String :=
  Entry.head field.number field.value.wireType ++ detail mayNest field.value

theorem fieldText_eq (mayNest : Bool) (field : Field) :
    ∃ first rest, (fieldText mayNest field).toList = first :: rest ∧ first.isDigit = true := by
  rw [fieldText, String.toList_append, toList_head, List.append_assoc]
  obtain ⟨digit, digits, numberEq, isDigit⟩ := toString_eq_cons field.number
  rw [numberEq]
  exact ⟨digit, _, rfl, isDigit⟩

theorem isText_fieldText (mayNest : Bool) (field : Field) : IsText (fieldText mayNest field) := by
  refine ⟨no_feed_append (no_feed_head _ _) (no_feed_detail _ _), ?_⟩
  obtain ⟨first, rest, begins, isDigit⟩ := fieldText_eq mayNest field
  rw [begins]
  rintro ⟨⟩
  cases isDigit

theorem sameDetail_of_fieldText {mayNest : Bool} {field other : Field}
    (same : fieldText mayNest field = fieldText mayNest other) :
    field.number = other.number ∧ SameDetail mayNest field.value other.value := by
  obtain ⟨numbers, wireTypes, details⟩ := head_append_inj same
  exact ⟨numbers, sameDetail_of_detail wireTypes details⟩

def blockLines (maxDepth level : Nat)
    (inner : (level : Nat) → Option Schema.MessageType → Bytes → List Entry) :
    FieldValue → List Line
  | .lengthDelimited payload =>
    match payloadForm {} (level < maxDepth) none payload with
    | .inline _ => []
    | .nested message => Entry.linesOf (inner level message payload) ++ [⟨level, "\x7d"⟩]
  | _ => []

theorem blockLines_block {maxDepth level : Nat}
    {inner : (level : Nat) → Option Schema.MessageType → Bytes → List Entry} {payload : Bytes}
    (opens : OpensBlock (level < maxDepth) payload) :
    blockLines maxDepth level inner (.lengthDelimited payload) =
      Entry.linesOf (inner level none payload) ++ [⟨level, "\x7d"⟩] := by
  rw [OpensBlock] at opens
  simp only [blockLines, opens]

theorem lines_entryOf (maxDepth level : Nat)
    (inner : (level : Nat) → Option Schema.MessageType → Bytes → List Entry) (field : Field) :
    (entryOf {} maxDepth level inner none field).lines =
      ⟨level, fieldText (level < maxDepth) field⟩ ::
        blockLines maxDepth level inner field.value := by
  obtain ⟨number, value⟩ := field
  simp only [fieldText, entryOf, fieldComment, valueComment, Option.map_none, Scalar.varintText,
    Scalar.fixed64Text, Scalar.fixed32Text]
  cases value with
  | varint value =>
      simp only [Entry.lines, detail, blockLines, String.append_empty, String.append_assoc]
  | fixed64 value =>
      simp only [Entry.lines, detail, blockLines, String.append_empty, String.append_assoc]
  | fixed32 value =>
      simp only [Entry.lines, detail, blockLines, String.append_empty, String.append_assoc]
  | startGroup => simp only [Entry.lines, detail, blockLines, FieldValue.wireType]
  | endGroup =>
      simp only [Entry.lines, detail, blockLines, String.append_empty, FieldValue.wireType]
  | lengthDelimited payload =>
      simp only [detail, blockLines, bracketed]
      cases payloadForm {} (level < maxDepth) none payload with
      | inline text =>
          simp only [Entry.lines, Entry.lengthHead, String.append_empty, String.append_assoc,
            FieldValue.wireType]
      | nested message =>
          simp only [Entry.lines, Entry.lengthHead, String.append_empty, String.append_assoc,
            FieldValue.wireType]

end ByteListing.Wire
