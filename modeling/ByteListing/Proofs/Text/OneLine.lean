import ByteListing.Proofs.Text.Lines
import ByteListing.Proofs.Text.Quoted

/-! # Texts of one line

A text is put on one line of a listing only if it holds neither a line feed nor a carriage return.
Texts that are put together hold one exactly if one of their parts does.  Numbers, digits and quoted
literals never hold one. -/
set_option autoImplicit false
namespace ByteListing

def EndsLine (c : Char) : Prop := c = '\n' ∨ c = '\r'

instance (c : Char) : Decidable (EndsLine c) := inferInstanceAs (Decidable (_ ∨ _))

def OneLine (text : String) : Prop := ∀ c ∈ text.toList, ¬ EndsLine c

instance (text : String) : Decidable (OneLine text) :=
  List.decidableBAll (fun c => ¬ EndsLine c) text.toList

theorem oneLine_of_octets {text : String}
    (printable : ∀ octet ∈ text.toByteArray.data.toList, 32 ≤ octet.toNat) : OneLine text := by
  have encoded : text.toByteArray.data.toList = text.toList.flatMap String.utf8EncodeChar := by
    rw [← String.utf8Encode_toList, List.utf8Encode, List.toList_data_toByteArray]
  rw [encoded] at printable
  rintro c member (rfl | rfl)
  · exact absurd (printable 0x0A (List.mem_flatMap.mpr ⟨_, member, by decide⟩)) (by decide)
  · exact absurd (printable 0x0D (List.mem_flatMap.mpr ⟨_, member, by decide⟩)) (by decide)

theorem oneLine_ofList_iff {text : List Char} :
    OneLine (String.ofList text) ↔ ∀ c ∈ text, ¬ EndsLine c := by
  rw [OneLine, String.toList_ofList]

theorem oneLine_append_iff {first second : String} :
    OneLine (first ++ second) ↔ OneLine first ∧ OneLine second := by
  rw [OneLine, String.toList_append, List.forall_mem_append]
  rfl

theorem oneLine_intercalate_iff {separator : String} (separate : OneLine separator)
    {texts : List String} :
    OneLine (separator.intercalate texts) ↔ ∀ text ∈ texts, OneLine text := by
  induction texts with
  | nil =>
      rw [String.intercalate_nil]
      exact ⟨fun _ => nofun, fun _ => nofun⟩
  | cons text rest inductionHypothesis =>
      rw [List.forall_mem_cons, ← inductionHypothesis]
      cases rest with
      | nil =>
          rw [String.intercalate_singleton, String.intercalate_nil]
          exact ⟨fun plain => ⟨plain, nofun⟩, fun plain => plain.1⟩
      | cons other others =>
          rw [String.intercalate_cons_cons, oneLine_append_iff, oneLine_append_iff, and_assoc,
            and_iff_right separate]

theorem oneLine_join {texts : List String} (plain : ∀ text ∈ texts, OneLine text) :
    OneLine (String.join texts) := by
  intro c member
  rw [String.toList_join, List.mem_flatMap] at member
  obtain ⟨text, listed, inside⟩ := member
  exact plain text listed c inside

/-! ## Parts of lines -/

theorem oneLine_toString (value : Nat) : OneLine (toString value) := by
  rintro c member (rfl | rfl)
  · exact not_mem_toString value (by decide) member
  · exact not_mem_toString value (by decide) member

theorem oneLine_toString_int (value : Int) : OneLine (toString value) := by
  intro c member ends
  rcases mem_toString_int member with isDigit | rfl
  · rcases ends with rfl | rfl
    · cases isDigit
    · cases isDigit
  · exact absurd ends (by decide)

theorem Hex.oneLine_literal (data : Bytes) : OneLine (literal data) := by
  rintro c member (rfl | rfl)
  · exact not_mem_literal rfl (by decide) data member
  · exact not_mem_literal rfl (by decide) data member

theorem Quoted.oneLine_ofText (text : List Char) : OneLine (ofText text) := by
  rintro c member (rfl | rfl)
  · exact absurd (isControl_of_mem_ofText member) (by decide)
  · exact absurd (isControl_of_mem_ofText member) (by decide)

end ByteListing
