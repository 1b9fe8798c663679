import ByteListing.Bytes

/-! # Cutting sequences

A sequence is cut at the first place where a given mark stands, trimmed at both ends, or cut
behind its first line.  A line ends before a line feed, or before a carriage return and a line
feed; the last line may end with the input instead. -/
set_option autoImplicit false
namespace ByteListing

section
variable {Item : Type}

def cut? [DecidableEq Item] (mark : List Item) (items : List Item) :
    Option (List Item × List Item) :=
  if mark.isPrefixOf items then
    some ([], items.drop mark.length)
  else
    match items with
    | [] => none
    | item :: rest => (cut? mark rest).map fun (before, behind) => (item :: before, behind)

def trim (blank : Item → Bool) (items : List Item) : List Item :=
  ((items.dropWhile blank).reverse.dropWhile blank).reverse

def withoutEnding? [DecidableEq Item] (ending items : List Item) : Option (List Item) :=
  if ending.isSuffixOf items then some (items.take (items.length - ending.length)) else none

theorem length_behind_le [DecidableEq Item] {mark items before behind : List Item}
    (found : cut? mark items = some (before, behind)) :
    behind.length + mark.length ≤ items.length := by
  induction items generalizing before with
  | nil =>
      rw [cut?] at found
      split at found
      · rename_i beginning
        have empty : mark = [] := by
          simpa using List.isPrefixOf_iff_prefix.mp beginning
        subst empty
        simp_all
      · simp at found
  | cons item rest inductionHypothesis =>
      rw [cut?] at found
      split at found
      · rename_i beginning
        have bound := (List.isPrefixOf_iff_prefix.mp beginning).length_le
        simp only [Option.some.injEq, Prod.mk.injEq] at found
        rw [← found.2, List.length_drop]
        omega
      · obtain ⟨⟨inner, after⟩, innerFound, equal⟩ := Option.map_eq_some_iff.mp found
        simp only [Prod.mk.injEq] at equal
        have bound := inductionHypothesis (equal.2 ▸ innerFound)
        simp only [List.length_cons]
        omega

end

namespace Bytes

def isBlank (byte : UInt8) : Bool :=
  byte == 0x20 || byte == 0x09 || byte == 0x0A || byte == 0x0C || byte == 0x0D

/-- The first line of the input, without its end, and the lines behind it. -/
def cutLine (data : Bytes) : Bytes × Bytes :=
  match cut? [0x0A] data with
  | none => (data, [])
  | some (line, rest) => ((withoutEnding? [0x0D] line).getD line, rest)

theorem length_cutLine_lt {data : Bytes} (nonempty : data ≠ []) :
    (cutLine data).2.length < data.length := by
  have positive := List.length_pos_iff.mpr nonempty
  unfold cutLine
  split
  · simpa using positive
  · rename_i found
    have bound := length_behind_le found
    simp only [List.length_singleton] at bound
    exact bound

theorem length_cutLine_le (data : Bytes) : (cutLine data).2.length ≤ data.length := by
  unfold cutLine
  split
  · simp
  · rename_i found
    exact Nat.le_of_succ_le (length_behind_le found)

end Bytes

end ByteListing
