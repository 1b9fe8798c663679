import ByteListing.Proofs.Wire.Scopes

/-! # A message type only annotates

With a message type and without one, the same fields are listed in the same order.  `Beside` puts
the lines of both listings side by side, field by field: both show a field at the same level and
with the same heading, which is its number, its wire type and the length of a payload.  What may
differ is the text behind the heading and the block in which a payload is shown, and that only
where the field is declared; then the line ends with a comment that names it.

The two listings go through the fields with stacks of their own, but the numbers of the open
groups follow from the fields, so that both stacks are `scopesInside` the same groups.  A block is
told from what surrounds it by its level: all its lines are deeper
(`lt_level_of_mem_payloadEntries`). -/
set_option autoImplicit false
namespace ByteListing.Wire

open ByteListing.Listing (print remainderLines)
open ByteListing.Schema (FieldType Kind MessageType Pool)

/-- What the line of a field begins with: its number, its wire type, and the length of a payload. -/
def Field.heading (field : Field) : String :=
  match field.value with
  | .lengthDelimited payload => Entry.lengthHead field.number payload.length
  | value => Entry.head field.number value.wireType

/-- The name that an enumeration has for a raw value, of which the low 32 bits count. -/
def valueName? (pool : Pool) (kind : Kind) (raw : Nat) : Option String :=
  match kind with
  | .enumeration fullName =>
    (pool.enum? fullName).bind (·.nameOf? (BitVec.ofNat 32 raw).toInt)
  | _ => none

/-- What the line of a field ends with: the name that the field is declared with, if it is, and
behind it that of a value of an enumeration.  The end of a group is not commented. -/
def annotation (pool : Pool) : (declared : Option FieldType) → FieldValue → String
  | none, _ => ""
  | some _, .endGroup => ""
  | some declared, .varint raw =>
    match valueName? pool declared.kind raw with
    | some name => "  # " ++ declared.name ++ " = " ++ name
    | none => "  # " ++ declared.name
  | some declared, _ => "  # " ++ declared.name

/-- The lines behind the first line of a field: none, or those of a payload and a brace. -/
inductive IsBlock (level : Nat) : FieldValue → List Line → Prop
  | none {value : FieldValue} : IsBlock level value []
  | payload {payload : Bytes} {inner : List Line} : (∀ line ∈ inner, level < line.level) →
      IsBlock level (.lengthDelimited payload) (inner ++ [⟨level, "\x7d"⟩])

/-- Lines that show a field at a level, with a text behind its heading. -/
structure Shows (level : Nat) (field : Field) (text : String) (lines : List Line) : Prop where
  separate : text = "" ∨ ∃ rest, text = " " ++ rest
  linesEq : ∃ block, lines = ⟨level, field.heading ++ text⟩ :: block ∧
    IsBlock level field.value block

inductive FieldBeside (pool : Pool) (level : Nat) (field : Field) :
    (declared : Option FieldType) → (typed plain : List Line) → Prop
  | undeclared {text : String} {lines : List Line} :
      Shows level field text lines → FieldBeside pool level field none lines lines
  | declared {declared : FieldType} {text plainText : String} {typed plain : List Line} :
      Shows level field (text ++ annotation pool (some declared) field.value) typed →
      Shows level field plainText plain →
      FieldBeside pool level field (some declared) typed plain

/-- The lines of fields inside open groups, with a message type for the whole and without one. -/
inductive Beside (pool : Pool) (whole : Option MessageType) (base : Nat) :
    (opened : List Nat) → List Field → (typed plain : List Line) → Prop
  | nil {opened : List Nat} : Beside pool whole base opened [] [] []
  | cons {opened : List Nat} {field : Field} {rest : List Field}
      {typed plain typedRest plainRest : List Line} :
      FieldBeside pool (base + depthInside opened field) field
        (declaredInside pool whole opened field.number) typed plain →
      Beside pool whole base (openAfter opened [field]) rest typedRest plainRest →
      Beside pool whole base opened (field :: rest) (typed ++ typedRest) (plain ++ plainRest)

/-! ## Comments -/

section Comment

variable (pool : Pool) (declared : Option FieldType)

/-- The comment is put together from that of the field and that of its value. -/
theorem annotation_eq (value : FieldValue) :
    annotation pool declared value =
      match value with
      | .endGroup => ""
      | .varint raw => fieldComment declared ++ valueComment pool declared raw
      | _ => fieldComment declared := by
  cases declared with
  | none => cases value <;> rfl
  | some declared =>
      obtain ⟨name, number, kind, repeated⟩ := declared
      cases value with
      | varint raw =>
          have numeral : (BitVec.ofNat 32 raw).toInt = signed 32 raw := BitVec.toInt_ofNat raw
          cases kind with
          | enumeration fullName =>
              cases named : (pool.enum? fullName).bind (·.nameOf? (signed 32 raw)) with
              | none => simp [valueName?, annotation, valueComment, fieldComment, numeral, named]
              | some value =>
                  simp [valueName?, annotation, valueComment, fieldComment, numeral, named,
                    String.append_assoc]
          | _ => exact String.append_empty.symm
      | _ => rfl

/-- A comment stands apart from the text in front of it. -/
theorem annotation_separate (value : FieldValue) :
    annotation pool declared value = "" ∨
      ∃ rest, annotation pool declared value = " " ++ rest := by
  have separate (text : String) : "  # " ++ text = " " ++ (" # " ++ text) := by
    rw [← String.append_assoc]
    rfl
  fun_cases annotation pool declared value
  · exact .inl rfl
  · exact .inl rfl
  · rw [String.append_assoc, String.append_assoc]
    exact .inr ⟨_, separate _⟩
  · exact .inr ⟨_, separate _⟩
  · exact .inr ⟨_, separate _⟩

end Comment

/-! ## One field -/

section Field

variable (pool : Pool) (maxDepth level : Nat)
  (inner : (level : Nat) → Option MessageType → Bytes → List Entry)

/-- Whatever it is declared as, a field is shown with its heading, and with its annotation at the
end of the first line. -/
theorem shows_entryOf (deeper : ∀ message payload,
      ∀ line ∈ Entry.linesOf (inner level message payload), level < line.level)
    (declared : Option FieldType) (field : Field) :
    ∃ text, Shows level field (text ++ annotation pool declared field.value)
      (entryOf pool maxDepth level inner declared field).lines := by
  obtain ⟨number, value⟩ := field
  cases value with
  | varint value =>
      refine ⟨" " ++ Scalar.varintText (declared.map FieldType.kind) value,
        .inr ⟨_, String.append_assoc⟩, [], ?_, .none⟩
      simp only [entryOf, Entry.lines, Field.heading, annotation_eq, String.append_assoc]
  | fixed64 value =>
      refine ⟨" " ++ Scalar.fixed64Text (declared.map FieldType.kind) value,
        .inr ⟨_, String.append_assoc⟩, [], ?_, .none⟩
      simp only [entryOf, Entry.lines, Field.heading, annotation_eq, String.append_assoc]
  | fixed32 value =>
      refine ⟨" " ++ Scalar.fixed32Text (declared.map FieldType.kind) value,
        .inr ⟨_, String.append_assoc⟩, [], ?_, .none⟩
      simp only [entryOf, Entry.lines, Field.heading, annotation_eq, String.append_assoc]
  | lengthDelimited payload =>
      cases shown : payloadForm pool (level < maxDepth) declared payload with
      | inline text =>
          refine ⟨" " ++ ("\x7b" ++ text ++ "\x7d"), .inr ⟨_, String.append_assoc⟩, [], ?_, .none⟩
          simp only [entryOf, shown, Entry.lines, Field.heading, annotation_eq, String.append_assoc]
          rfl
      | nested message =>
          refine ⟨" " ++ "\x7b", .inr ⟨_, String.append_assoc⟩,
            Entry.linesOf (inner level message payload) ++ [⟨level, "\x7d"⟩], ?_,
            .payload (deeper message payload)⟩
          simp only [entryOf, shown, Entry.lines, Field.heading, annotation_eq, String.append_assoc]
          rfl
  | startGroup =>
      refine ⟨"", ?_, [], ?_, .none⟩
      · rw [String.empty_append]
        exact annotation_separate pool declared .startGroup
      · simp [entryOf, Entry.lines, Field.heading, annotation_eq, FieldValue.wireType]
  | endGroup =>
      refine ⟨"", ?_, [], ?_, .none⟩
      · rw [annotation_eq]
        exact .inl rfl
      · simp [entryOf, Entry.lines, Field.heading, annotation_eq, FieldValue.wireType]

end Field

theorem Shows.le_level {level : Nat} {field : Field} {text : String} {lines : List Line}
    (showsField : Shows level field text lines) : ∀ line ∈ lines, level ≤ line.level := by
  obtain ⟨-, block, rfl, isBlock⟩ := showsField
  intro line member
  rcases List.mem_cons.mp member with rfl | inBlock
  · exact Nat.le_refl level
  · generalize field.value = value at isBlock
    cases isBlock with
    | none => cases inBlock
    | payload deeper =>
        rcases List.mem_append.mp inBlock with inInner | inBrace
        · exact Nat.le_of_lt (deeper line inInner)
        · obtain rfl := List.mem_singleton.mp inBrace
          exact Nat.le_refl level

/-! ## The lines of blocks -/

section Levels

variable {pool : Pool} {maxDepth base : Nat}
  {inner : (level : Nat) → Option MessageType → Bytes → List Entry}
  (deeper : ∀ level message payload,
    ∀ line ∈ Entry.linesOf (inner level message payload), level < line.level)
include deeper

theorem le_level_of_mem_entriesOf (whole : Option MessageType) (opened : List Nat)
    (fields : List Field) :
    ∀ line ∈ Entry.linesOf (entriesOf pool maxDepth base inner whole
      (scopesInside pool whole opened) fields), base ≤ line.level := by
  induction fields generalizing opened with
  | nil => simp [entriesOf, Entry.linesOf]
  | cons field rest inductionHypothesis =>
      intro line member
      rw [entriesOf_cons, Entry.linesOf, List.mem_append] at member
      rcases member with inField | inRest
      · obtain ⟨text, showsField⟩ := shows_entryOf pool maxDepth _ inner (deeper _) _ field
        exact Nat.le_trans (Nat.le_add_right ..) (showsField.le_level line inField)
      · exact inductionHypothesis _ line inRest

end Levels

theorem lt_level_of_mem_payloadEntries (pool : Pool) (maxDepth base level : Nat)
    (message : Option MessageType) (payload : Bytes) :
    ∀ line ∈ Entry.linesOf (payloadEntries pool maxDepth base level message payload),
      level < line.level := by
  intro line member
  rw [payloadEntries] at member
  split at member
  · rename_i deep
    have deeper := lt_level_of_mem_payloadEntries pool maxDepth (level + 1)
    rw [linesOf_entries, List.mem_append] at member
    rcases member with inFields | inEnding
    · exact le_level_of_mem_entriesOf deeper message [] _ line inFields
    · rw [remainderLines] at inEnding
      split at inEnding
      · cases inEnding
      · obtain rfl := List.mem_singleton.mp inEnding
        exact Nat.le_add_right ..
  · cases member
termination_by maxDepth - base
decreasing_by omega

/-! ## Without a message type -/

section Untyped

variable (pool other : Pool) (maxDepth base : Nat)
  {inner otherInner : (level : Nat) → Option MessageType → Bytes → List Entry}

theorem entryOf_undeclared (level : Nat)
    (same : ∀ payload, inner level none payload = otherInner level none payload) (field : Field) :
    entryOf pool maxDepth level inner none field =
      entryOf other maxDepth level otherInner none field := by
  obtain ⟨number, value⟩ := field
  cases value with
  | lengthDelimited payload =>
      simp only [entryOf, payloadForm, undeclaredForm]
      by_cases empty : payload.isEmpty
      · simp [empty]
      · by_cases legible : Legible.isUtf8 payload
        · simp [empty, legible]
        · by_cases nests : level < maxDepth ∧ isMessage payload <;>
            simp [empty, legible, nests, same]
  | _ => rfl

theorem entriesOf_untyped
    (same : ∀ level payload, inner level none payload = otherInner level none payload)
    (opened : List Nat) (fields : List Field) :
    entriesOf pool maxDepth base inner none (scopesInside pool none opened) fields =
      entriesOf other maxDepth base otherInner none (scopesInside other none opened) fields := by
  induction fields generalizing opened with
  | nil => rfl
  | cons field rest inductionHypothesis =>
      rw [entriesOf_cons, entriesOf_cons, inductionHypothesis, declaredInside_none,
        declaredInside_none, entryOf_undeclared pool other maxDepth _ (same _)]

end Untyped

theorem payloadEntries_untyped (pool other : Pool) (maxDepth base level : Nat) (payload : Bytes) :
    payloadEntries pool maxDepth base level none payload =
      payloadEntries other maxDepth base level none payload := by
  rw [payloadEntries, payloadEntries]
  split
  · rename_i deep
    have same := payloadEntries_untyped pool other maxDepth (level + 1)
    rw [entries_eq, entries_eq]
    exact congrArg (· ++ _) (entriesOf_untyped pool other maxDepth (level + 1) same [] _)
  · rfl
termination_by maxDepth - base
decreasing_by omega

/-! ## Both listings -/

section Beside

variable (pool other : Pool) (maxDepth base : Nat) (whole : Option MessageType)

theorem fieldBeside_entryOf (level : Nat) (declared : Option FieldType) (field : Field) :
    FieldBeside pool level field declared
      (entryOf pool maxDepth level (payloadEntries pool maxDepth base) declared field).lines
      (entryOf other maxDepth level (payloadEntries other maxDepth base) none field).lines := by
  obtain ⟨text, typed⟩ := shows_entryOf pool maxDepth level (payloadEntries pool maxDepth base)
    (lt_level_of_mem_payloadEntries pool maxDepth base level) declared field
  cases declared with
  | none =>
      rw [entryOf_undeclared other pool maxDepth level
        (payloadEntries_untyped other pool maxDepth base level)]
      exact .undeclared typed
  | some declared =>
      obtain ⟨plainText, plain⟩ := shows_entryOf other maxDepth level
        (payloadEntries other maxDepth base)
        (lt_level_of_mem_payloadEntries other maxDepth base level) none field
      exact .declared typed plain

theorem beside_entriesOf (opened : List Nat) (fields : List Field) :
    Beside pool whole base opened fields
      (Entry.linesOf (entriesOf pool maxDepth base (payloadEntries pool maxDepth base) whole
        (scopesInside pool whole opened) fields))
      (Entry.linesOf (entriesOf other maxDepth base (payloadEntries other maxDepth base) none
        (scopesInside other none opened) fields)) := by
  induction fields generalizing opened with
  | nil => exact .nil
  | cons field rest inductionHypothesis =>
      rw [entriesOf_cons, entriesOf_cons, declaredInside_none, Entry.linesOf, Entry.linesOf]
      exact .cons (fieldBeside_entryOf pool other maxDepth base _ _ field)
        (inductionHypothesis (openAfter opened [field]))

end Beside

/-- With a message type the same fields are listed at the same levels and with the same headings as
without one, and the same octets that are no field.  A field that is not declared in the message
type of its group is shown by the same lines, its block included, and a field that is declared is
shown with a comment that names it. -/
theorem listing_annotates (layout : Layout) (pool other : Pool) (message : MessageType)
    (data : Bytes) :
    ∃ typed plain remainder,
      render layout pool (some message) data = print layout.indent (typed ++ remainder) ∧
      render layout other none data = print layout.indent (plain ++ remainder) ∧
      Beside pool (some message) 0 [] ((Field.parseAll data).1.map Prod.fst) typed plain ∧
      remainder = remainderLines (openAfter [] ((Field.parseAll data).1.map Prod.fst)).length
        (Field.parseAll data).2 := by
  refine ⟨_, _, _, ?_, ?_, beside_entriesOf pool other layout.maxDepth 0 (some message) [] _, rfl⟩
  · rw [render, listing, linesOf_entries, Nat.zero_add]
    rfl
  · rw [render, listing, linesOf_entries, Nat.zero_add]
    rfl

end ByteListing.Wire
