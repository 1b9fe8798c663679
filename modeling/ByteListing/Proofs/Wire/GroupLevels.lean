import ByteListing.Proofs.Wire.Annotation
import ByteListing.Proofs.Wire.Groups

/-! # The levels of groups

In the listing of a message every group ends at the level at which it started.  `LaidOut` follows
the fields and says which lines show them: a field stands at the level of the groups around it,
with its number, its wire type and its annotation; a group encloses the lines of its fields one
level deeper; a payload in a block is a message, which is laid out one level deeper as well.
There is no line for octets that hold no field.

The listing keeps the open groups on a stack and takes the level from its height.  Balanced fields
leave the stack as it was (`openAfter_append`), so that the end of a group finds its own number
there, and the fields behind it are listed like those in front. -/
set_option autoImplicit false
namespace ByteListing.Wire

open ByteListing.Schema (FieldType MessageType Pool)

/-- Lines that show balanced fields inside open groups, with a message type for the whole. -/
inductive LaidOut (pool : Pool) : (whole : Option MessageType) → (base : Nat) →
    (opened : List Nat) → List Field → List Line → Prop
  | nil {whole : Option MessageType} {base : Nat} {opened : List Nat} :
      LaidOut pool whole base opened [] []
  | scalar (text : String) {whole : Option MessageType} {base : Nat} {opened : List Nat}
      {field : Field} {fields : List Field} {later : List Line} :
      field.IsPlain → (∀ payload, field.value ≠ .lengthDelimited payload) →
      LaidOut pool whole base opened fields later →
      LaidOut pool whole base opened (field :: fields)
        (⟨base + opened.length, Entry.head field.number field.value.wireType ++ " " ++ text ++
          annotation pool (declaredInside pool whole opened field.number) field.value⟩ :: later)
  | payload (number : Nat) (payload : Bytes) (text : String) {whole : Option MessageType}
      {base : Nat} {opened : List Nat} {fields : List Field} {later : List Line} :
      LaidOut pool whole base opened fields later →
      LaidOut pool whole base opened (⟨number, .lengthDelimited payload⟩ :: fields)
        (⟨base + opened.length, Entry.lengthHead number payload.length ++ " \x7b" ++ text ++
          "\x7d" ++ annotation pool (declaredInside pool whole opened number)
            (.lengthDelimited payload)⟩ :: later)
  | block {whole : Option MessageType} {base : Nat} {opened : List Nat} {number : Nat}
      {payload : Bytes} {fields : List Field} {inner later : List Line} :
      isMessage payload = true →
      LaidOut pool (messageOf? pool (declaredInside pool whole opened number))
        (base + opened.length + 1) [] ((Field.parseAll payload).1.map Prod.fst) inner →
      LaidOut pool whole base opened fields later →
      LaidOut pool whole base opened (⟨number, .lengthDelimited payload⟩ :: fields)
        (⟨base + opened.length, Entry.lengthHead number payload.length ++ " \x7b" ++
          annotation pool (declaredInside pool whole opened number) (.lengthDelimited payload)⟩ ::
          (inner ++ ⟨base + opened.length, "\x7d"⟩ :: later))
  /-- A group: its start and its end at the same level, and its fields one level deeper. -/
  | group {whole : Option MessageType} {base : Nat} {opened : List Nat} {number : Nat}
      {enclosed fields : List Field} {inner later : List Line} :
      LaidOut pool whole base (number :: opened) enclosed inner →
      LaidOut pool whole base opened fields later →
      LaidOut pool whole base opened
        (⟨number, .startGroup⟩ :: (enclosed ++ ⟨number, .endGroup⟩ :: fields))
        (⟨base + opened.length, Entry.head number .startGroup ++
          annotation pool (declaredInside pool whole opened number) .startGroup⟩ ::
          (inner ++ ⟨base + opened.length, Entry.head number .endGroup⟩ :: later))

/-! ## The stack -/

theorem openAfter_plain {field : Field} (isPlain : field.IsPlain) (opened : List Nat)
    (rest : List Field) : openAfter opened (field :: rest) = openAfter opened rest := by
  obtain ⟨number, value⟩ := field
  cases value with
  | varint value => rfl
  | fixed64 value => rfl
  | fixed32 value => rfl
  | lengthDelimited payload => rfl
  | startGroup => exact absurd rfl isPlain.1
  | endGroup => exact absurd rfl isPlain.2

theorem openAfter_start (number : Nat) (opened : List Nat) (rest : List Field) :
    openAfter opened (⟨number, .startGroup⟩ :: rest) = openAfter (number :: opened) rest := rfl

theorem openAfter_end (number : Nat) (opened : List Nat) (rest : List Field) :
    openAfter (number :: opened) (⟨number, .endGroup⟩ :: rest) = openAfter opened rest := by
  simp only [openAfter, if_true]

theorem openAfter_append {fields : List Field} (balanced : Balanced fields) (opened : List Nat)
    (rest : List Field) : openAfter opened (fields ++ rest) = openAfter opened rest := by
  induction balanced generalizing opened rest with
  | nil => rfl
  | @plain field others isPlain _ inductionHypothesis =>
      rw [List.cons_append, openAfter_plain isPlain, inductionHypothesis]
  | @group number enclosed others _ _ enclosedHypothesis othersHypothesis =>
      rw [List.cons_append, List.append_assoc, List.cons_append, openAfter_start,
        enclosedHypothesis, openAfter_end, othersHypothesis]

/-- Behind balanced fields the groups are open that were open in front of them. -/
theorem openAfter_balanced {fields : List Field} (balanced : Balanced fields)
    (opened : List Nat) : openAfter opened fields = opened := by
  have behind := openAfter_append balanced opened []
  rwa [List.append_nil] at behind

theorem depthInside_plain {field : Field} (isPlain : field.IsPlain) (opened : List Nat) :
    depthInside opened field = opened.length := by
  obtain ⟨number, value⟩ := field
  cases value with
  | endGroup => exact absurd rfl isPlain.2
  | _ => rfl

/-! ## The lines of fields -/

section Fields

variable {pool : Pool} {maxDepth base : Nat}
  {inner : (level : Nat) → Option MessageType → Bytes → List Entry}
  {whole : Option MessageType}
  (deeper : ∀ level message payload, base ≤ level → level < maxDepth → isMessage payload = true →
    LaidOut pool message (level + 1) [] ((Field.parseAll payload).1.map Prod.fst)
      (Entry.linesOf (inner level message payload)))
include deeper

theorem LaidOut.plain {opened : List Nat} {field : Field} (isPlain : field.IsPlain)
    {fields : List Field} {later : List Line}
    (laid : LaidOut pool whole base opened fields later) :
    LaidOut pool whole base opened (field :: fields)
      ((entryOf pool maxDepth (base + opened.length) inner
        (declaredInside pool whole opened field.number) field).lines ++ later) := by
  obtain ⟨number, value⟩ := field
  let kind := (declaredInside pool whole opened number).map FieldType.kind
  cases value with
  | varint value =>
      have shown := LaidOut.scalar (Scalar.varintText kind value) isPlain nofun laid
      rw [annotation_eq] at shown
      exact shown
  | fixed64 value =>
      have shown := LaidOut.scalar (Scalar.fixed64Text kind value) isPlain nofun laid
      rw [annotation_eq] at shown
      exact shown
  | fixed32 value =>
      have shown := LaidOut.scalar (Scalar.fixed32Text kind value) isPlain nofun laid
      rw [annotation_eq] at shown
      exact shown
  | lengthDelimited payload =>
      cases form : payloadForm pool (base + opened.length < maxDepth)
        (declaredInside pool whole opened number) payload with
      | inline text =>
          have shown := LaidOut.payload number payload text laid
          rw [annotation_eq] at shown
          simp only [entryOf, form]
          exact shown
      | nested message =>
          obtain ⟨shallow, readable, rfl⟩ := nests_of_payloadForm form
          have inside := deeper (base + opened.length)
            (messageOf? pool (declaredInside pool whole opened number)) payload
            (Nat.le_add_right ..) (of_decide_eq_true shallow) readable
          have shown := LaidOut.block readable inside laid
          rw [annotation_eq] at shown
          simp only [entryOf, form, Entry.lines, List.cons_append, List.append_assoc,
            List.nil_append]
          exact shown
  | startGroup => exact absurd rfl isPlain.1
  | endGroup => exact absurd rfl isPlain.2

theorem laidOut_entriesOf {fields : List Field} (balanced : Balanced fields)
    (opened : List Nat) :
    LaidOut pool whole base opened fields (Entry.linesOf (entriesOf pool maxDepth base inner whole
      (scopesInside pool whole opened) fields)) := by
  induction balanced generalizing opened with
  | nil => exact .nil
  | plain isPlain _ inductionHypothesis =>
      rw [entriesOf_cons, openAfter_plain isPlain, openAfter, depthInside_plain isPlain,
        Entry.linesOf]
      exact (inductionHypothesis opened).plain deeper isPlain
  | @group number enclosed others enclosedBalanced _ enclosedHypothesis othersHypothesis =>
      rw [entriesOf_cons, openAfter_start, openAfter, entriesOf_behind,
        openAfter_balanced enclosedBalanced, entriesOf_cons, openAfter_end, openAfter]
      have laid := LaidOut.group (enclosedHypothesis (number :: opened)) (othersHypothesis opened)
      rw [annotation_eq] at laid
      simp only [Entry.linesOf, Entry.linesOf_append, depthInside, openAfter]
      exact laid

end Fields

/-- The lines of a message at a level are laid out there: nothing is left over. -/
theorem laidOut_entries (pool : Pool) (maxDepth level : Nat) (message : Option MessageType)
    {data : Bytes} (wholeMessage : isMessage data = true) :
    LaidOut pool message level [] ((Field.parseAll data).1.map Prod.fst)
      (Entry.linesOf (entries pool maxDepth level message data)) := by
  obtain ⟨-, nothingLeft, balanced⟩ := isMessage_iff_balanced.mp wholeMessage
  have laid : LaidOut pool message level [] ((Field.parseAll data).1.map Prod.fst)
      (Entry.linesOf (entriesOf pool maxDepth level (payloadEntries pool maxDepth level) message
        (scopesInside pool message []) ((Field.parseAll data).1.map Prod.fst))) := by
    refine laidOut_entriesOf ?_ balanced []
    intro depth declared payload notAbove shallow readable
    rw [payloadEntries, dif_pos ⟨notAbove, shallow⟩]
    exact laidOut_entries pool maxDepth (depth + 1) declared readable
  have nothingShown (depth : Nat) : Listing.remainderLines depth [] = [] := rfl
  rw [linesOf_entries, nothingLeft, nothingShown, List.append_nil]
  exact laid
termination_by maxDepth - level
decreasing_by omega

/-- A byte string is a message exactly if it is made of whole items and not empty.  Whatever its
type and layout, the lines that list a message are laid out at the first level, field by field: no
line shows octets that hold no field, groups end at the level at which they start, and behind the
last field no group is open. -/
theorem isMessage_iff_items_and_laidOut (data : Bytes) :
    (isMessage data = true ↔ data ≠ [] ∧ Items data) ∧
    (isMessage data = true → ∀ (layout : Layout) (pool : Pool) (message : Option MessageType),
      LaidOut pool message 0 [] ((Field.parseAll data).1.map Prod.fst)
        (listing layout pool message data) ∧
      render layout pool message data =
        Listing.print layout.indent (listing layout pool message data) ∧
      openAfter [] ((Field.parseAll data).1.map Prod.fst) = []) := by
  refine ⟨isMessage_iff_items, ?_⟩
  intro wholeMessage layout pool message
  obtain ⟨-, -, balanced⟩ := isMessage_iff_balanced.mp wholeMessage
  exact ⟨laidOut_entries pool layout.maxDepth 0 message wholeMessage, rfl,
    openAfter_balanced balanced []⟩

end ByteListing.Wire
