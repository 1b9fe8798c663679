import ByteListing.Proofs.Text.Blocks
import ByteListing.Wire.Listing

/-! # The scopes of groups

The fields between the start and the end of a group belong to the message type of the group.
Which groups are open follows from the fields before (`openAfter`), and the numbers of the open
groups give the message type at hand: each leads from the message type around it to that of the
field that it names there (`messageInside`).

The listing keeps the message types on its stack of open groups instead.  `entriesOf_cons` says
that it finds the same declarations, whatever the fields are. -/
set_option autoImplicit false
namespace ByteListing.Wire

open ByteListing.Listing (remainderLines)
open ByteListing.Schema (FieldType MessageType Pool)

section

variable (pool : Pool) (whole : Option MessageType)

/-- The message type inside open groups of the given numbers, innermost first. -/
def messageInside : (opened : List Nat) → Option MessageType
  | [] => whole
  | number :: outer => messageOf? pool ((messageInside outer).bind (·.field? number))

def declaredInside (opened : List Nat) (number : Nat) : Option FieldType :=
  (messageInside pool whole opened).bind (·.field? number)

def scopesInside : (opened : List Nat) → Scopes
  | [] => []
  | number :: outer => (number, messageInside pool whole (number :: outer)) :: scopesInside outer

theorem length_scopesInside (opened : List Nat) :
    (scopesInside pool whole opened).length = opened.length := by
  induction opened with
  | nil => rfl
  | cons number outer inductionHypothesis => simp [scopesInside, inductionHypothesis]

theorem message_scopesInside (opened : List Nat) :
    (scopesInside pool whole opened).message whole = messageInside pool whole opened := by
  cases opened with
  | nil => rfl
  | cons number outer => rfl

theorem close_scopesInside (opened : List Nat) (number : Nat) :
    (scopesInside pool whole opened).close number =
      scopesInside pool whole (openAfter opened [⟨number, .endGroup⟩]) := by
  cases opened with
  | nil => rfl
  | cons innermost outer =>
      by_cases same : innermost = number <;> simp [scopesInside, Scopes.close, openAfter, same]

theorem messageInside_none (opened : List Nat) : messageInside pool none opened = none := by
  induction opened with
  | nil => rfl
  | cons innermost outer inductionHypothesis =>
      simp [messageInside, inductionHypothesis, messageOf?]

theorem declaredInside_none (opened : List Nat) (number : Nat) :
    declaredInside pool none opened number = none := by
  rw [declaredInside, messageInside_none, Option.bind_none]

end

/-- How much deeper than the whole a field stands: the end of a group as deep as its start. -/
def depthInside (opened : List Nat) (field : Field) : Nat :=
  match field.value with
  | .endGroup => (openAfter opened [field]).length
  | _ => opened.length

/-- One field is listed at its depth and as it is declared, and the rest inside the groups that
are then open. -/
theorem entriesOf_cons (pool : Pool) (maxDepth base : Nat)
    (inner : (level : Nat) → Option MessageType → Bytes → List Entry)
    (whole : Option MessageType) (opened : List Nat) (field : Field) (rest : List Field) :
    entriesOf pool maxDepth base inner whole (scopesInside pool whole opened) (field :: rest) =
      entryOf pool maxDepth (base + depthInside opened field) inner
          (declaredInside pool whole opened field.number) field ::
        entriesOf pool maxDepth base inner whole
          (scopesInside pool whole (openAfter opened [field])) rest := by
  obtain ⟨number, value⟩ := field
  cases value with
  | endGroup =>
      simp only [entriesOf, message_scopesInside, close_scopesInside, length_scopesInside,
        depthInside, declaredInside]
  | _ =>
      simp only [entriesOf, message_scopesInside, length_scopesInside, depthInside]
      rfl

theorem openAfter_cons (opened : List Nat) (field : Field) (rest : List Field) :
    openAfter opened (field :: rest) = openAfter (openAfter opened [field]) rest := by
  obtain ⟨number, value⟩ := field
  cases value with
  | endGroup =>
      cases opened with
      | nil => rfl
      | cons innermost outer => rfl
  | _ => rfl

/-- Fields are listed inside the groups that the fields before them leave open. -/
theorem entriesOf_behind (pool : Pool) (maxDepth base : Nat)
    (inner : (level : Nat) → Option MessageType → Bytes → List Entry)
    (whole : Option MessageType) (opened : List Nat) (before rest : List Field) :
    entriesOf pool maxDepth base inner whole (scopesInside pool whole opened) (before ++ rest) =
      entriesOf pool maxDepth base inner whole (scopesInside pool whole opened) before ++
        entriesOf pool maxDepth base inner whole
          (scopesInside pool whole (openAfter opened before)) rest := by
  induction before generalizing opened with
  | nil => rfl
  | cons field others inductionHypothesis =>
      rw [List.cons_append, entriesOf_cons, entriesOf_cons, inductionHypothesis,
        ← openAfter_cons, List.cons_append]

/-! ## Payloads in blocks -/

/-- A payload is shown in a block only if that may nest and the payload is a message, and then with
the message type that its field is declared with. -/
structure Nests (pool : Pool) (mayNest : Bool) (declared : Option FieldType) (payload : Bytes)
    (message : Option MessageType) : Prop where
  allowed : mayNest = true
  readable : isMessage payload = true
  messageEq : message = messageOf? pool declared

theorem nests_of_undeclaredForm {pool : Pool} {mayNest : Bool} {declared : Option FieldType}
    {payload : Bytes} {message : Option MessageType} (untyped : messageOf? pool declared = none)
    (shown : undeclaredForm mayNest payload = .nested message) :
    Nests pool mayNest declared payload message := by
  rw [undeclaredForm] at shown
  split at shown
  · cases shown
  · split at shown
    · rename_i nests
      cases shown
      exact ⟨nests.1, nests.2, untyped.symm⟩
    · cases shown

theorem nests_of_declaredForm {pool : Pool} {mayNest : Bool} {declared : FieldType}
    {payload : Bytes} {message : Option MessageType}
    (shown : declaredForm pool mayNest declared payload = .nested message) :
    Nests pool mayNest (some declared) payload message := by
  obtain ⟨name, number, kind, repeated⟩ := declared
  cases kind with
  | message fullName =>
      simp only [declaredForm] at shown
      split at shown
      · rename_i nests
        cases shown
        exact ⟨nests.1, nests.2, rfl⟩
      · -- Without a declaration the same condition is asked for, which does not hold.
        rename_i refused
        have untyped : messageOf? pool none = none := rfl
        have undeclared := nests_of_undeclaredForm untyped shown
        exact absurd ⟨undeclared.allowed, undeclared.readable⟩ refused
  | string => cases shown
  | _ =>
      simp only [declaredForm] at shown
      split at shown
      · split at shown
        · cases shown
        · exact nests_of_undeclaredForm rfl shown
      · exact nests_of_undeclaredForm rfl shown

theorem nests_of_payloadForm {pool : Pool} {mayNest : Bool} {declared : Option FieldType}
    {payload : Bytes} {message : Option MessageType}
    (shown : payloadForm pool mayNest declared payload = .nested message) :
    Nests pool mayNest declared payload message := by
  rw [payloadForm.eq_def] at shown
  split at shown
  · cases shown
  · cases declared with
    | none => exact nests_of_undeclaredForm rfl shown
    | some declared => exact nests_of_declaredForm shown

/-! ## Whole byte strings -/

/-- The entries of a payload in a block, which is listed only within the depth limit. -/
def payloadEntries (pool : Pool) (maxDepth base level : Nat) (message : Option MessageType)
    (payload : Bytes) : List Entry :=
  if _ : base ≤ level ∧ level < maxDepth then entries pool maxDepth (level + 1) message payload
  else []

def ending (level : Nat) (remaining : Bytes) : List Entry :=
  if remaining.isEmpty then [] else [.remainder level remaining]

theorem linesOf_ending (level : Nat) (remaining : Bytes) :
    Entry.linesOf (ending level remaining) = remainderLines level remaining := by
  rw [ending, remainderLines]
  split <;> rfl

theorem Entry.linesOf_append (first second : List Entry) :
    Entry.linesOf (first ++ second) = Entry.linesOf first ++ Entry.linesOf second := by
  induction first with
  | nil => rfl
  | cons entry rest inductionHypothesis =>
      rw [List.cons_append, Entry.linesOf, Entry.linesOf, inductionHypothesis,
        List.append_assoc]

theorem entries_eq (pool : Pool) (maxDepth level : Nat) (message : Option MessageType)
    (data : Bytes) :
    entries pool maxDepth level message data =
      entriesOf pool maxDepth level (payloadEntries pool maxDepth level) message []
          ((Field.parseAll data).1.map Prod.fst) ++
        ending (level + (openAfter [] ((Field.parseAll data).1.map Prod.fst)).length)
          (Field.parseAll data).2 := by
  rw [entries]
  rfl

theorem linesOf_entries (pool : Pool) (maxDepth level : Nat) (message : Option MessageType)
    (data : Bytes) :
    Entry.linesOf (entries pool maxDepth level message data) =
      Entry.linesOf (entriesOf pool maxDepth level (payloadEntries pool maxDepth level) message []
          ((Field.parseAll data).1.map Prod.fst)) ++
        remainderLines (level + (openAfter [] ((Field.parseAll data).1.map Prod.fst)).length)
          (Field.parseAll data).2 := by
  rw [entries_eq, Entry.linesOf_append, linesOf_ending]

end ByteListing.Wire
