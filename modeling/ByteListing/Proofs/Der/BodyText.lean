import ByteListing.Proofs.Der.Manner

/-! # What stands between the braces

The first line of an element ends in what `Body.braced` gives: the text of its body between
braces, or an opening brace alone.  Behind the head of an element it gives the body, or the value
of it, or that a block follows (`sameShape_of_braced_eq`). -/
set_option autoImplicit false
namespace ByteListing.Der

namespace Body

def braced : Body → String
  | empty => "\x7b\x7d"
  | inline text comment => "\x7b " ++ text ++ " \x7d" ++ Entry.commentPart comment
  | nested _ _ => "\x7b"

theorem toList_braced_inline (text : String) (comment : Option String) :
    (braced (.inline text comment)).toList =
      '\x7b' :: ' ' :: (text.toList ++ ' ' :: '\x7d' :: (Entry.commentPart comment).toList) := by
  simp only [braced, String.toList_append, List.append_assoc]
  rfl

theorem toList_braced_nested (lead : Option String) (inner : Bytes) :
    (braced (.nested lead inner)).toList = ['\x7b'] := by
  rw [braced]
  rfl

theorem braced_inline_ne_nested (text : String) (comment : Option String)
    (lead : Option String) (inner : Bytes) :
    braced (.inline text comment) ≠ braced (.nested lead inner) := by
  intro same
  have listed := congrArg String.toList same
  rw [toList_braced_inline, toList_braced_nested] at listed
  cases (List.cons.inj listed).2

theorem braced_empty_ne_nested (lead : Option String) (inner : Bytes) :
    braced .empty ≠ braced (.nested lead inner) := by
  intro same
  have listed := congrArg String.toList same
  rw [toList_braced_nested] at listed
  cases (List.cons.inj listed).2

theorem braced_inline_ne_empty (text : String) (comment : Option String) :
    braced (.inline text comment) ≠ braced .empty := by
  intro same
  have listed := congrArg String.toList same
  rw [toList_braced_inline] at listed
  cases (List.cons.inj (List.cons.inj listed).2).1

/-- A comment stands behind texts without blanks only, so that it hides no difference. -/
theorem text_of_braced_eq {layout : Layout} {manner : Manner} {first second : Bytes}
    (same : braced (.inline (manner.text first) (manner.comment layout first)) =
      braced (.inline (manner.text second) (manner.comment layout second))) :
    manner.text first = manner.text second := by
  have listed := congrArg String.toList same
  rw [toList_braced_inline, toList_braced_inline, List.cons.injEq, List.cons.injEq] at listed
  have texts := listed.2.2
  by_cases plain : ∀ relative, manner ≠ .identifier relative
  · rw [Manner.comment_eq_none plain, Manner.comment_eq_none plain] at texts
    exact String.toList_inj.mp (List.append_cancel_right texts)
  · cases manner with
    | identifier relative =>
        have noBlank (data : Bytes) : ' ' ∉ ((Manner.identifier relative).text data).toList :=
          Manner.not_mem_identifier rfl (by decide) rfl (by decide) relative data
        exact String.toList_inj.mp (append_mark_inj (noBlank first) (noBlank second) texts).1
    | _ => exact absurd nofun plain

/-! ## Whole bodies -/

/-- An element that is shown as a block of the elements in `inner`, behind an octet that tells
how many bits are not used. -/
structure OpensBlock (layout : Layout) (mayNest : Bool) (element : Element)
    (unused : Option UInt8) (inner : Bytes) : Prop where
  shown : ofElement layout mayNest element =
    .nested (unused.map fun octet => Hex.literal [octet]) inner
  whole : element.body = unused.toList ++ inner

end Body

namespace Element

/-- An integer that is shown in decimal, and its value. -/
structure HasValue (element : Element) (value : Int) : Prop where
  type : element.tag = ⟨.universal, false, 2⟩ ∨ element.tag = ⟨.universal, false, 10⟩
  occupied : element.body ≠ []
  short : element.body.length ≤ 8
  exact : Body.integer element.body = value

/-- An object identifier that is shown dotted, and its arcs. -/
inductive HasArcs (element : Element) : List Nat → Prop
  | absolute {numbers : List Nat} : element.tag = ⟨.universal, false, 6⟩ →
      ObjectIdentifier.numbers? element.body = some numbers → numbers ≠ [] →
      HasArcs element (ObjectIdentifier.arcs false numbers)
  | relative {numbers : List Nat} : element.tag = ⟨.universal, false, 13⟩ →
      ObjectIdentifier.numbers? element.body = some numbers → numbers ≠ [] →
      HasArcs element (ObjectIdentifier.arcs true numbers)

end Element

inductive SameBody (first second : Element) : Prop
  | same : first.body = second.body → SameBody first second
  | value {value : Int} : first.HasValue value → second.HasValue value → SameBody first second
  | arcs {arcs : List Nat} : first.HasArcs arcs → second.HasArcs arcs → SameBody first second

theorem sameBody_of_sameText {first second : Element} (tags : first.tag = second.tag)
    (occupied : first.body ≠ []) (otherOccupied : second.body ≠ [])
    (same : (Manner.ofTag first.tag).SameText first.body second.body) : SameBody first second := by
  generalize mannerEq : Manner.ofTag first.tag = manner at same
  generalize firstEq : first.body = data at same
  generalize secondEq : second.body = other at same
  cases same with
  | same => exact .same (firstEq.trans secondEq.symm)
  | integer short otherShort values =>
      obtain ⟨tagEq, number⟩ := Manner.tag_of_ofTag mannerEq nofun nofun
      have type : first.tag = ⟨.universal, false, 2⟩ ∨ first.tag = ⟨.universal, false, 10⟩ := by
        rcases Manner.ofNumber_eq_decimal number with two | ten
        · exact .inl (by rw [tagEq, two])
        · exact .inr (by rw [tagEq, ten])
      subst firstEq secondEq
      exact .value ⟨type, occupied, short, values⟩
        ⟨by rwa [← tags], otherOccupied, otherShort, rfl⟩
  | arcs found someNumbers otherFound someOthers equal =>
      obtain ⟨tagEq, number⟩ := Manner.tag_of_ofTag mannerEq nofun nofun
      subst firstEq secondEq
      rcases Manner.ofNumber_eq_identifier number with ⟨rfl, six⟩ | ⟨rfl, thirteen⟩
      · have type : first.tag = ⟨.universal, false, 6⟩ := by rw [tagEq, six]
        refine .arcs (.absolute type found someNumbers) ?_
        rw [equal]
        exact .absolute (tags.symm.trans type) otherFound someOthers
      · have type : first.tag = ⟨.universal, false, 13⟩ := by rw [tagEq, thirteen]
        refine .arcs (.relative type found someNumbers) ?_
        rw [equal]
        exact .relative (tags.symm.trans type) otherFound someOthers

theorem braced_body_ne_empty (layout : Layout) (mayNest : Bool) (manner : Manner) (data : Bytes) :
    (manner.body layout mayNest data).braced ≠ Body.braced .empty := by
  rw [Manner.body]
  split
  · exact (Body.braced_empty_ne_nested _ _).symm
  · exact Body.braced_inline_ne_empty _ _

theorem opensBlock_of_block? {layout : Layout} {mayNest : Bool} {element : Element}
    {unused : Option UInt8} {inner : Bytes} (occupied : element.body ≠ [])
    (shown : (Manner.ofTag element.tag).block? mayNest element.body = some (unused, inner)) :
    Body.OpensBlock layout mayNest element unused inner := by
  refine ⟨?_, (Manner.block?_eq_some shown).1⟩
  rw [Body.ofElement_eq layout mayNest occupied, Manner.body, shown]

/-- Elements of one tag that are shown alike behind their heads: on one line with the same body,
or as blocks behind the same octet. -/
inductive SameShape (layout : Layout) (mayNest : Bool) (first second : Element) : Prop
  | flat : SameBody first second →
      (∀ lead inner, Body.ofElement layout mayNest first ≠ .nested lead inner) →
      (∀ lead inner, Body.ofElement layout mayNest second ≠ .nested lead inner) →
      SameShape layout mayNest first second
  | block {unused : Option UInt8} {inner others : Bytes} :
      Body.OpensBlock layout mayNest first unused inner →
      Body.OpensBlock layout mayNest second unused others → SameShape layout mayNest first second

theorem sameShape_of_braced_eq {layout : Layout} {mayNest : Bool} {first second : Element}
    (tags : first.tag = second.tag)
    (same : (Body.ofElement layout mayNest first).braced =
      (Body.ofElement layout mayNest second).braced) : SameShape layout mayNest first second := by
  by_cases empty : first.body = []
  · have firstShown := Body.ofElement_empty layout mayNest empty
    by_cases otherEmpty : second.body = []
    · have secondShown := Body.ofElement_empty layout mayNest otherEmpty
      refine .flat (.same (empty.trans otherEmpty.symm)) ?_ ?_
      · rw [firstShown]
        intro lead inner shown
        cases shown
      · rw [secondShown]
        intro lead inner shown
        cases shown
    · rw [firstShown, Body.ofElement_eq layout mayNest otherEmpty] at same
      exact absurd same.symm (braced_body_ne_empty _ _ _ _)
  · have firstShown := Body.ofElement_eq layout mayNest empty
    by_cases otherEmpty : second.body = []
    · rw [firstShown, Body.ofElement_empty layout mayNest otherEmpty] at same
      exact absurd same (braced_body_ne_empty _ _ _ _)
    · have secondShown := Body.ofElement_eq layout mayNest otherEmpty
      rw [← tags] at secondShown
      rw [Manner.body] at firstShown secondShown
      rw [firstShown, secondShown] at same
      cases block : (Manner.ofTag first.tag).block? mayNest first.body with
      | none =>
          rw [block] at same firstShown
          cases otherBlock : (Manner.ofTag first.tag).block? mayNest second.body with
          | none =>
              rw [otherBlock] at same secondShown
              have texts := Manner.sameText_of_text_eq empty otherEmpty
                (Body.text_of_braced_eq same)
              refine .flat (sameBody_of_sameText tags empty otherEmpty texts) ?_ ?_
              · rw [firstShown]
                intro lead inner shown
                cases shown
              · rw [secondShown]
                intro lead inner shown
                cases shown
          | some shown =>
              rw [otherBlock] at same
              exact absurd same (Body.braced_inline_ne_nested _ _ _ _)
      | some shown =>
          obtain ⟨unused, inner⟩ := shown
          rw [block] at same
          cases otherBlock : (Manner.ofTag first.tag).block? mayNest second.body with
          | none =>
              rw [otherBlock] at same
              exact absurd same.symm (Body.braced_inline_ne_nested _ _ _ _)
          | some otherShown =>
              obtain ⟨otherUnused, others⟩ := otherShown
              obtain rfl : unused = otherUnused :=
                (Manner.block?_eq_some block).2.trans (Manner.block?_eq_some otherBlock).2.symm
              rw [tags] at otherBlock
              exact .block (opensBlock_of_block? empty block)
                (opensBlock_of_block? otherEmpty otherBlock)

theorem no_feed_braced (layout : Layout) (mayNest : Bool) (element : Element) :
    '\n' ∉ (Body.ofElement layout mayNest element).braced.toList := by
  by_cases empty : element.body = []
  · rw [Body.ofElement_empty layout mayNest empty]
    decide
  · rw [Body.ofElement_eq layout mayNest empty, Manner.body]
    split
    · rw [Body.toList_braced_nested]
      decide
    · have noFeed := Manner.no_feed_text (Manner.ofTag element.tag) element.body
      have noCommentFeed := Manner.no_feed_comment layout (Manner.ofTag element.tag) element.body
      simp [Body.toList_braced_inline, noFeed, noCommentFeed]

end ByteListing.Der
