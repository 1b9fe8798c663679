import ByteListing.Proofs.Wire.Groups
import ByteListing.Proofs.Wire.Scopes

/-! # The place of a field in a listing

Fields that were read one behind the other are listed in that order, each inside the groups that
the fields before it leave open, and what is listed of them does not depend on what follows.  So
what one field is shown as can be told from that field and from the fields before it, in a whole
message as in a block: if its entry is a single line, that line stands behind the lines of the
fields before it (`listedBehind`). -/
set_option autoImplicit false
namespace ByteListing.Wire

open ByteListing.Schema (MessageType Pool)

/-- Behind what is listed in front of them, octets are listed by one line, whatever follows. -/
structure ListedBehind (pool : Pool) (maxDepth level : Nat) (whole : Option MessageType)
    (front octets : Bytes) (line : Line) : Prop where
  alone : Entry.linesOf (entries pool maxDepth level whole (front ++ octets)) =
    Entry.linesOf (entries pool maxDepth level whole front) ++ [line]
  followed : ∀ back, ∃ later, Entry.linesOf (entries pool maxDepth level whole
    (front ++ octets ++ back)) = Entry.linesOf (entries pool maxDepth level whole front) ++
      line :: later

section

variable (pool : Pool) (maxDepth level : Nat) (whole : Option MessageType)

theorem entries_sequence {fields : List Field} {data : Bytes} (read : Field.Sequence fields data) :
    entries pool maxDepth level whole data =
      entriesOf pool maxDepth level (payloadEntries pool maxDepth level) whole [] fields := by
  have parsed := Field.parseAll_append read []
  rw [Field.parseAll_nil, List.append_nil, List.map_nil, List.append_nil] at parsed
  obtain ⟨allFields, nothingLeft⟩ := Prod.mk.inj parsed
  have nothingEnds (depth : Nat) : ending depth [] = [] := rfl
  rw [entries_eq, allFields, nothingLeft, nothingEnds, List.append_nil]

theorem exists_entries_append {fields : List Field} {data : Bytes}
    (read : Field.Sequence fields data) (back : Bytes) :
    ∃ later, entries pool maxDepth level whole (data ++ back) =
      entries pool maxDepth level whole data ++ later := by
  obtain ⟨allFields, -⟩ := Prod.mk.inj (Field.parseAll_append read back)
  have listed := entriesOf_behind pool maxDepth level (payloadEntries pool maxDepth level) whole []
    fields ((Field.parseAll back).1.map Prod.fst)
  rw [entries_eq, entries_sequence _ _ _ _ read, allFields]
  rw [scopesInside] at listed
  rw [listed, List.append_assoc]
  exact ⟨_, rfl⟩

theorem listedBehind {before : List Field} {front : Bytes} (read : Field.Sequence before front)
    {field : Field} {octets : Bytes} (written : field.Octets octets) {line : Line}
    (shown : (entryOf pool maxDepth (level + depthInside (openAfter [] before) field)
      (payloadEntries pool maxDepth level)
      (declaredInside pool whole (openAfter [] before) field.number) field).lines = [line]) :
    ListedBehind pool maxDepth level whole front octets line := by
  have longer : Field.Sequence (before ++ [field]) (front ++ octets) := by
    have last := Field.Sequence.cons written .nil
    rw [List.append_nil] at last
    exact read.append last
  have alone : Entry.linesOf (entries pool maxDepth level whole (front ++ octets)) =
      Entry.linesOf (entries pool maxDepth level whole front) ++ [line] := by
    have listed := entriesOf_behind pool maxDepth level (payloadEntries pool maxDepth level) whole
      [] before [field]
    rw [scopesInside] at listed
    rw [entries_sequence _ _ _ _ longer, entries_sequence _ _ _ _ read, listed, entriesOf_cons,
      Entry.linesOf_append, Entry.linesOf, shown]
    rfl
  refine ⟨alone, ?_⟩
  intro back
  obtain ⟨later, listed⟩ := exists_entries_append pool maxDepth level whole longer back
  rw [listed, Entry.linesOf_append, alone, List.append_assoc]
  exact ⟨_, rfl⟩

end

end ByteListing.Wire
