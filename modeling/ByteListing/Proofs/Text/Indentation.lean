import ByteListing.Proofs.Text.Lines

/-! # Indenting a whole text

`indented` puts an indentation in front of every line of a text.  On a listing whose texts and whose
indentation hold no line feed this is the same as listing every line one level deeper
(`indented_print`). -/
set_option autoImplicit false
namespace ByteListing.Listing

/-- A text with `indent` in front of every line; `fresh` tells whether a line begins here. -/
def indentFrom (indent : List Char) : (fresh : Bool) → List Char → List Char
  | _, [] => []
  | fresh, c :: rest => (if fresh then indent else []) ++ c :: indentFrom indent (c == '\n') rest

def indented (indent text : String) : String :=
  String.ofList (indentFrom indent.toList true text.toList)

def raised (line : Line) : Line := { line with level := line.level + 1 }

section Lines

variable {indent text rest : List Char}

theorem indentFrom_inside (noFeed : '\n' ∉ text) :
    indentFrom indent false (text ++ '\n' :: rest) =
      text ++ '\n' :: indentFrom indent true rest := by
  induction text with
  | nil => simp [indentFrom]
  | cons c text inductionHypothesis =>
      simp only [List.mem_cons, not_or] at noFeed
      have other : (c == '\n') = false := by simpa using Ne.symm noFeed.1
      rw [List.cons_append, indentFrom, other, inductionHypothesis noFeed.2]
      simp

theorem indentFrom_line (noFeed : '\n' ∉ text) :
    indentFrom indent true (text ++ '\n' :: rest) =
      indent ++ (text ++ '\n' :: indentFrom indent true rest) := by
  cases text with
  | nil => simp [indentFrom]
  | cons c text =>
      simp only [List.mem_cons, not_or] at noFeed
      have other : (c == '\n') = false := by simpa using Ne.symm noFeed.1
      rw [List.cons_append, indentFrom, other, indentFrom_inside noFeed.2]
      simp

end Lines

theorem no_feed_repeated {indent : String} (noFeed : '\n' ∉ indent.toList) (count : Nat) :
    '\n' ∉ (repeated count indent).toList := by
  induction count with
  | zero => simp [repeated]
  | succ count inductionHypothesis => exact no_feed_append noFeed inductionHypothesis

theorem print_outermost (indent text : String) (rest : List Line) :
    print indent (⟨0, text⟩ :: rest) = text ++ "\n" ++ print indent rest := by
  rw [print, List.map_cons, String.join_cons, printLine, repeated, String.empty_append]
  rfl

/-- A listing that is indented as a whole is the listing of its lines one level deeper. -/
theorem indented_print {indent : String} (noFeed : '\n' ∉ indent.toList) {lines : List Line}
    (noTextFeed : ∀ line ∈ lines, '\n' ∉ line.text.toList) :
    indented indent (print indent lines) = print indent (lines.map raised) := by
  apply String.toList_inj.mp
  rw [indented, String.toList_ofList]
  induction lines with
  | nil => rfl
  | cons line rest inductionHypothesis =>
      have following := inductionHypothesis fun other member =>
        noTextFeed other (List.mem_cons_of_mem _ member)
      have noLineFeed : '\n' ∉ (repeated line.level indent).toList ++ line.text.toList := by
        rw [← String.toList_append]
        exact no_feed_append (no_feed_repeated noFeed _) (noTextFeed line (List.mem_cons_self ..))
      rw [toList_print_cons, indentFrom_line noLineFeed, following, List.map_cons,
        toList_print_cons, raised, repeated, String.toList_append]
      simp only [List.append_assoc]

/-- Empty lines are indented as well; the end of a text begins no line. -/
example : indented "> " "a\n\nb\n" = "> a\n> \n> b\n" := by decide +kernel

end ByteListing.Listing
