import ByteListing.Proofs.Text.Lines
import ByteListing.Proofs.Wire.GroupLevels

/-! # Listings of fields one behind the other

Octets are `Complete` if they are read as fields to their end and every group ends in them.  Such
octets are read without regard to what follows them, and behind them no group is open, so that
the listing goes on at the first level, with the message type of the whole, as if nothing stood in
front. -/
set_option autoImplicit false
namespace ByteListing.Wire

open ByteListing.Listing (print_append)
open ByteListing.Schema (MessageType Pool)

/-- Octets that consist of fields, with every group ended. -/
structure Complete (data : Bytes) : Prop where
  nothingLeft : (Field.parseAll data).2 = []
  balanced : Balanced ((Field.parseAll data).1.map Prod.fst)

theorem complete_iff {data : Bytes} : Complete data ↔ data = [] ∨ isMessage data = true := by
  constructor
  · intro complete
    by_cases noFields : (Field.parseAll data).1 = []
    · obtain ⟨front, whole, sequence⟩ := Field.sequence_of_parseAll data
      rw [noFields] at sequence
      rw [complete.nothingLeft, List.append_nil] at whole
      cases sequence
      exact .inl whole
    · exact .inr (isMessage_iff_balanced.mpr ⟨noFields, complete.nothingLeft, complete.balanced⟩)
  · rintro (rfl | wholeMessage)
    · constructor
      · rw [Field.parseAll_nil]
      · rw [Field.parseAll_nil]
        exact .nil
    · obtain ⟨-, nothingLeft, balanced⟩ := isMessage_iff_balanced.mp wholeMessage
      exact ⟨nothingLeft, balanced⟩

theorem Complete.parseAll_append {first : Bytes} (complete : Complete first) (second : Bytes) :
    (Field.parseAll (first ++ second)).1.map Prod.fst =
        (Field.parseAll first).1.map Prod.fst ++ (Field.parseAll second).1.map Prod.fst ∧
      (Field.parseAll (first ++ second)).2 = (Field.parseAll second).2 := by
  obtain ⟨front, whole, sequence⟩ := Field.sequence_of_parseAll first
  rw [complete.nothingLeft, List.append_nil] at whole
  rw [← whole] at sequence
  exact Prod.mk.inj (Field.parseAll_append sequence second)

theorem entries_append (pool : Pool) (maxDepth level : Nat) (message : Option MessageType)
    {first : Bytes} (complete : Complete first) (second : Bytes) :
    entries pool maxDepth level message (first ++ second) =
      entries pool maxDepth level message first ++ entries pool maxDepth level message second := by
  obtain ⟨fields, remaining⟩ := complete.parseAll_append second
  have closed := openAfter_balanced complete.balanced []
  have listed := entriesOf_behind pool maxDepth level (payloadEntries pool maxDepth level) message
    [] ((Field.parseAll first).1.map Prod.fst) ((Field.parseAll second).1.map Prod.fst)
  rw [closed, scopesInside] at listed
  have nothingEnds (depth : Nat) : ending depth [] = [] := rfl
  rw [entries_eq, entries_eq _ _ _ _ first, entries_eq _ _ _ _ second, fields, remaining, listed,
    openAfter_append complete.balanced, complete.nothingLeft, nothingEnds, List.append_nil,
    List.append_assoc]

/-- Behind octets that are empty or a message, a listing goes on as the listing of what stands
there, whether or not that can be read. -/
theorem render_behind_message (layout : Layout) (pool : Pool) (message : Option MessageType)
    {first : Bytes} (complete : first = [] ∨ isMessage first = true) (second : Bytes) :
    render layout pool message (first ++ second) =
      render layout pool message first ++ render layout pool message second := by
  rw [render, listing, entries_append pool _ _ message (complete_iff.mpr complete),
    Entry.linesOf_append, print_append]
  rfl

/-- A group of a declared message type, and behind it a group that is left open, around a field of
which the end is missing. -/
theorem render_behind_group :
    isMessage [0x0B, 0x10, 0x07, 0x0C] = true ∧
    render ⟨"\t", 1⟩
        { messages := [⟨"Part", "Part", [⟨"size", 2, .int32, false⟩], []⟩] }
        (some ⟨"Whole", "Whole", [⟨"part", 1, .message "Part", false⟩], []⟩)
        ([0x0B, 0x10, 0x07, 0x0C] ++ [0x0B, 0x12, 0x05, 0x61]) =
      "1:SGROUP  # part\n\t2:VARINT 7  # size\n1:EGROUP\n" ++
        "1:SGROUP  # part\n\t`120561`\n" := by
  have wholeMessage : isMessage [0x0B, 0x10, 0x07, 0x0C] = true := by decide +kernel
  refine ⟨wholeMessage, (render_behind_message _ _ _ (.inr wholeMessage) _).trans ?_⟩
  decide +kernel

end ByteListing.Wire
