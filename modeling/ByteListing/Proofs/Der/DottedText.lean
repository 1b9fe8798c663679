import ByteListing.Der.ObjectIdentifier
import ByteListing.Proofs.Text.Lines

/-! # Dotted text read back

Arcs are numbers with points between them, so they can be read off from left to right: a number
ends at a point or with the text.  The dotted text of a body gives the arcs but not the body,
whose numbers may be padded. -/
set_option autoImplicit false
namespace ByteListing.Der.ObjectIdentifier

def dottedRest (arcs : List Nat) : List Char :=
  if arcs = [] then [] else '.' :: (dotted arcs).toList

theorem toList_dotted_cons (arc : Nat) (rest : List Nat) :
    (dotted (arc :: rest)).toList = (toString arc).toList ++ dottedRest rest := by
  cases rest with
  | nil => simp [dotted, dottedRest]
  | cons other others => simp [dotted, dottedRest, String.toList_intercalate, List.intercalate]

theorem dottedRest_stops (arcs : List Nat) :
    ∀ c ∈ (dottedRest arcs).head?, c.isDigit = false := by
  rw [dottedRest]
  split
  · nofun
  · rintro c ⟨⟩
    rfl

theorem dotted_cons_ne_empty (arc : Nat) (rest : List Nat) : dotted (arc :: rest) ≠ "" := by
  intro same
  have listed := congrArg String.toList same
  obtain ⟨digit, digits, arcEq, -⟩ := toString_eq_cons arc
  rw [toList_dotted_cons, arcEq] at listed
  cases listed

theorem dotted_inj {first second : List Nat} (same : dotted first = dotted second) :
    first = second := by
  induction first generalizing second with
  | nil =>
      cases second with
      | nil => rfl
      | cons arc rest => exact absurd same.symm (dotted_cons_ne_empty arc rest)
  | cons arc rest inductionHypothesis =>
      cases second with
      | nil => exact absurd same (dotted_cons_ne_empty arc rest)
      | cons other others =>
          have listed := congrArg String.toList same
          rw [toList_dotted_cons, toList_dotted_cons] at listed
          obtain ⟨rfl, following⟩ :=
            digits_append_inj (dottedRest_stops rest) (dottedRest_stops others) listed
          rw [dottedRest, dottedRest] at following
          split at following
          · rename_i restEmpty
            split at following
            · rename_i othersEmpty
              rw [restEmpty, othersEmpty]
            · cases following
          · split at following
            · cases following
            · have texts := String.toList_inj.mp (List.cons.inj following).2
              rw [inductionHypothesis texts]

theorem mem_dotted {arcs : List Nat} {c : Char} (member : c ∈ (dotted arcs).toList) :
    c.isDigit = true ∨ c = '.' := by
  induction arcs with
  | nil => cases member
  | cons arc rest inductionHypothesis =>
      rw [toList_dotted_cons, List.mem_append, dottedRest] at member
      rcases member with inArc | inRest
      · exact .inl (isDigit_of_mem_toString inArc)
      · split at inRest
        · cases inRest
        · rcases List.mem_cons.mp inRest with point | inOthers
          · exact .inr point
          · exact inductionHypothesis inOthers

theorem decode?_eq_some_iff {relative : Bool} {body : Bytes} {text : String} :
    decode? relative body = some text ↔ ∃ numbers, numbers? body = some numbers ∧
      numbers ≠ [] ∧ dotted (arcs relative numbers) = text := by
  rw [decode?]
  constructor
  · intro shown
    split at shown
    · cases shown
    · cases shown
    · rename_i numbers occupied found
      exact ⟨numbers, found, occupied, Option.some.inj shown⟩
  · rintro ⟨numbers, found, occupied, rfl⟩
    rw [found]
    cases numbers with
    | nil => exact absurd rfl occupied
    | cons number others => rfl

theorem decode?_begins {relative : Bool} {body : Bytes} {text : String}
    (shown : decode? relative body = some text) :
    ∃ first behind, text.toList = first :: behind ∧ first.isDigit = true := by
  obtain ⟨numbers, -, occupied, rfl⟩ := decode?_eq_some_iff.mp shown
  cases arcsEq : arcs relative numbers with
  | nil =>
      cases numbers with
      | nil => exact absurd rfl occupied
      | cons number others =>
          rw [arcs, firstArcs] at arcsEq
          split at arcsEq
          · cases arcsEq
          · split at arcsEq
            · cases arcsEq
            · split at arcsEq <;> cases arcsEq
  | cons arc rest =>
      obtain ⟨digit, digits, arcEq, isDigit⟩ := toString_eq_cons arc
      rw [toList_dotted_cons, arcEq]
      exact ⟨digit, _, rfl, isDigit⟩

end ByteListing.Der.ObjectIdentifier
