import ByteListing.Proofs.Text.Hex
import ByteListing.Proofs.Text.Lines

/-! # Where blocks stop

A block holds lines of one kind, then perhaps one line of octets in digits, and a closing brace;
a whole listing ends without the brace.  The line of digits begins with a backtick and the end of
a block with the brace, so that lines of any other beginning can be told from both
(`line_ne_end`), and the octets are read off the end of a block whatever follows it. -/
set_option autoImplicit false
namespace ByteListing.Listing

/-- The end of a block, with what follows it, or of the whole listing. -/
inductive Closing : List Line → Prop
  | whole : Closing []
  | block {level : Nat} {rest : List Line} : Closing (⟨level, "\x7d"⟩ :: rest)

def remainderLines (level : Nat) (data : Bytes) : List Line :=
  if data.isEmpty then [] else [⟨level, Hex.literal data⟩]

/-- Lines with which no entry of a block begins. -/
structure IsEnd (lines : List Line) : Prop where
  isText : ∀ line ∈ lines.head?, IsText line.text
  begins : ∀ c ∈ opening lines, c = '`' ∨ c = '\x7d'

theorem isText_literal (data : Bytes) : IsText (Hex.literal data) := by
  refine ⟨Hex.no_feed_literal data, ?_⟩
  rw [Hex.toList_literal]
  nofun

theorem isText_brace : IsText "\x7d" := ⟨by decide, by decide⟩

theorem opening_brace (level : Nat) (rest : List Line) :
    opening (⟨level, "\x7d"⟩ :: rest) = some '\x7d' := by
  simp only [opening, List.head?_cons, Option.bind_some]
  decide

theorem opening_literal (level : Nat) (data : Bytes) (rest : List Line) :
    opening (⟨level, Hex.literal data⟩ :: rest) = some '`' := by
  simp only [opening, List.head?_cons, Option.bind_some, Hex.toList_literal]

theorem Closing.isText {lines : List Line} (closing : Closing lines) :
    ∀ line ∈ lines.head?, IsText line.text := by
  cases closing with
  | whole => nofun
  | block => exact isText_head? isText_brace _

theorem Closing.opening {lines : List Line} (closing : Closing lines) :
    ∀ c ∈ opening lines, c = '\x7d' := by
  cases closing with
  | whole => nofun
  | block =>
      intro c member
      rw [opening_brace] at member
      cases member
      rfl

theorem isEnd_remainderLines (level : Nat) (data : Bytes) {rest : List Line}
    (closing : Closing rest) : IsEnd (remainderLines level data ++ rest) := by
  rw [remainderLines]
  split
  · exact ⟨closing.isText, fun c member => .inr (closing.opening c member)⟩
  · refine ⟨isText_head? (isText_literal data) rest, ?_⟩
    intro c member
    rw [List.singleton_append, opening_literal] at member
    cases member
    exact .inl rfl

section Reading

variable {indent : String} (blank : IsBlank indent)
include blank

theorem literal_ne_closing {level : Nat} {data : Bytes} {rest others : List Line}
    (closing : Closing others) :
    print indent (⟨level, Hex.literal data⟩ :: rest) ≠ print indent others := by
  intro same
  have openings := opening_eq_of_print_eq blank (isText_head? (isText_literal data) _)
    closing.isText same
  rw [opening_literal] at openings
  cases closing.opening _ openings.symm

theorem remainder_of_print_eq {level otherLevel : Nat} {data other : Bytes}
    {rest others : List Line} (closing : Closing rest) (otherClosing : Closing others)
    (same : print indent (remainderLines level data ++ rest) =
      print indent (remainderLines otherLevel other ++ others)) :
    data = other ∧ print indent rest = print indent others := by
  simp only [remainderLines] at same
  split at same
  · rename_i empty
    split at same
    · rename_i otherEmpty
      rw [List.isEmpty_iff.mp empty, List.isEmpty_iff.mp otherEmpty]
      exact ⟨rfl, same⟩
    · exact absurd same.symm (literal_ne_closing blank closing)
  · split at same
    · exact absurd same (literal_ne_closing blank otherClosing)
    · obtain ⟨texts, following⟩ := print_cons_inj blank (isText_literal data)
        (isText_literal other) same
      exact ⟨Hex.literal_inj texts, following⟩

theorem line_ne_end {line : Line} {rest others : List Line} (isText : IsText line.text)
    (other : ∃ first behind, line.text.toList = first :: behind ∧ first ≠ '`' ∧ first ≠ '\x7d')
    (isEnd : IsEnd others) : print indent (line :: rest) ≠ print indent others := by
  intro same
  have openings := opening_eq_of_print_eq blank (isText_head? isText _) isEnd.isText same
  obtain ⟨first, behind, begins, noLiteral, noBrace⟩ := other
  simp only [opening, List.head?_cons, Option.bind_some, begins] at openings
  exact (isEnd.begins first openings.symm).elim noLiteral noBrace

end Reading

end ByteListing.Listing
