import ByteListing.Proofs.Der.BodyText
import ByteListing.Proofs.Der.HeadText
import ByteListing.Proofs.Text.Blocks

/-! # Listings of elements can be read in one way

Byte strings with the same listing are `Alike`: they hold elements of the same tags, with the
same lengths left open, and end in the same octets that do not parse.  Bodies that are not shown
as blocks have the same octets, the same value or the same arcs, and those that are shown as
blocks are alike again.  Lengths and numbers may be padded, which no listing shows.

The listing is read from its first line on.  The head of an element ends at the first brace, and
never begins like a line of octets or the end of a block; a block gives back the listing behind
it, whatever that is. -/
set_option autoImplicit false
namespace ByteListing.Der

open ByteListing.Listing (Closing IsBlank IsEnd IsText isEnd_remainderLines isText_brace
  line_ne_end print print_append_inj print_cons_inj remainderLines remainder_of_print_eq)
open Body (OpensBlock)

mutual

/-- Byte strings whose listings hold the same, with `room` more levels before the limit. -/
inductive Alike (layout : Layout) : (room : Nat) → (first second : Bytes) → Prop
  | intro {room : Nat} {first second : Bytes} :
      ElementsAlike layout room (Element.parseAll first).1 (Element.parseAll second).1 →
      (Element.parseAll first).2 = (Element.parseAll second).2 → Alike layout room first second

inductive ElementsAlike (layout : Layout) :
    (room : Nat) → (first second : List Element) → Prop
  | nil {room : Nat} : ElementsAlike layout room [] []
  | cons {room : Nat} {element other : Element} {rest others : List Element} :
      ElementAlike layout room element other → ElementsAlike layout room rest others →
      ElementsAlike layout room (element :: rest) (other :: others)

/-- Elements of the same tag, whose lengths are both left open or both not, with the same body
or with bodies that are both shown as blocks and are alike in them. -/
inductive ElementAlike (layout : Layout) : (room : Nat) → (first second : Element) → Prop
  | flat {room : Nat} {first second : Element} :
      first.tag = second.tag → first.indefinite = second.indefinite → SameBody first second →
      ElementAlike layout room first second
  | block {room : Nat} {first second : Element} {unused : Option UInt8} {inner others : Bytes} :
      first.tag = second.tag → first.indefinite = second.indefinite →
      OpensBlock layout true first unused inner → OpensBlock layout true second unused others →
      Alike layout room inner others → ElementAlike layout (room + 1) first second

end

/-! ## The lines of elements -/

def elementText (layout : Layout) (mayNest : Bool) (element : Element) : String :=
  element.head ++ " " ++ (Body.ofElement layout mayNest element).braced

def inner? (layout : Layout) : (room : Nat) → Option (Bytes → List Entry)
  | 0 => none
  | room + 1 => some (entries layout room)

def blockLines (layout : Layout) (room level : Nat) (element : Element) : List Line :=
  match Body.ofElement layout (inner? layout room).isSome element with
  | .nested lead inner =>
    (lead.toList.map fun text => ⟨level + 1, text⟩) ++
      Entry.linesOf (level + 1) (((inner? layout room).map (· inner)).getD []) ++
        [⟨level, "\x7d"⟩]
  | _ => []

def elementLines (layout : Layout) (room level : Nat) (elements : List Element) : List Line :=
  Entry.linesOf level (elements.map (entryWith layout (inner? layout room)))

theorem lines_entryWith (layout : Layout) (room level : Nat) (element : Element) :
    Entry.lines level (entryWith layout (inner? layout room) element) =
      ⟨level, elementText layout (inner? layout room).isSome element⟩ ::
        blockLines layout room level element := by
  rw [entryWith, elementText, blockLines]
  cases Body.ofElement layout (inner? layout room).isSome element with
  | empty =>
      simp only [Entry.lines, Body.braced, String.append_assoc]
      rfl
  | inline text comment =>
      have firstLine : element.head ++ " \x7b " ++ text ++ " \x7d" ++ Entry.commentPart comment =
          element.head ++ " " ++ Body.braced (.inline text comment) := by
        refine String.toList_inj.mp ?_
        simp only [Body.braced, String.toList_append, List.append_assoc]
        rfl
      rw [Entry.lines, firstLine]
  | nested lead inner =>
      simp only [Entry.lines, Body.braced, String.append_assoc]
      rfl

theorem linesOf_append (level : Nat) (first second : List Entry) :
    Entry.linesOf level (first ++ second) =
      Entry.linesOf level first ++ Entry.linesOf level second := by
  induction first with
  | nil => rfl
  | cons entry rest inductionHypothesis =>
      rw [List.cons_append, Entry.linesOf, inductionHypothesis, Entry.linesOf, List.append_assoc]

theorem linesOf_entries (layout : Layout) (room level : Nat) (data : Bytes) :
    Entry.linesOf level (entries layout room data) =
      elementLines layout room level (Element.parseAll data).1 ++
        remainderLines level (Element.parseAll data).2 := by
  have shape : entries layout room = entriesWith layout (inner? layout room) := by
    cases room <;> rfl
  rw [shape, entriesWith, linesOf_append, remainderLines]
  split <;> rfl

theorem elementLines_cons (layout : Layout) (room level : Nat) (element : Element)
    (rest : List Element) :
    elementLines layout room level (element :: rest) =
      ⟨level, elementText layout (inner? layout room).isSome element⟩ ::
        (blockLines layout room level element ++ elementLines layout room level rest) := by
  rw [elementLines, List.map_cons, Entry.linesOf, lines_entryWith]
  rfl

/-! ## The first line -/

theorem Body.braced_begins (body : Body) : ∃ behind, body.braced.toList = '\x7b' :: behind := by
  cases body with
  | empty => exact ⟨['\x7d'], rfl⟩
  | inline text comment => exact ⟨_, toList_braced_inline text comment⟩
  | nested lead inner => exact ⟨[], toList_braced_nested lead inner⟩

theorem toList_elementText (layout : Layout) (mayNest : Bool) (element : Element) :
    (elementText layout mayNest element).toList =
      (element.head.toList ++ [' ']) ++
        (Body.ofElement layout mayNest element).braced.toList := by
  simp only [elementText, String.toList_append]
  rfl

theorem elementText_begins (layout : Layout) (mayNest : Bool) (element : Element) :
    ∃ first behind, (elementText layout mayNest element).toList = first :: behind ∧
      (Tag.inWord first = true ∨ first = '[') := by
  obtain ⟨first, behind, begins, kind⟩ := element.tag.displayName_begins
  rw [toList_elementText, Element.head, String.toList_append, begins]
  exact ⟨first, _, rfl, kind⟩

theorem isText_elementText (layout : Layout) (mayNest : Bool) (element : Element) :
    IsText (elementText layout mayNest element) := by
  refine ⟨?_, ?_⟩
  · intro member
    rw [toList_elementText, List.mem_append, List.mem_append] at member
    rcases member with (inHead | inBlank) | inBraces
    · cases Element.inHead_of_mem_head inHead
    · cases List.mem_singleton.mp inBlank
    · exact no_feed_braced layout mayNest element inBraces
  · obtain ⟨first, behind, begins, kind⟩ := elementText_begins layout mayNest element
    rw [begins]
    rintro ⟨⟩
    rcases kind with inWord | bracket
    · cases inWord
    · cases bracket

theorem elementText_inj {layout : Layout} {mayNest : Bool} {first second : Element}
    (same : elementText layout mayNest first = elementText layout mayNest second) :
    first.tag = second.tag ∧ first.indefinite = second.indefinite ∧
      SameShape layout mayNest first second := by
  have noBrace (element : Element) : '\x7b' ∉ element.head.toList ++ [' '] := by
    rw [List.mem_append]
    rintro (inHead | inBlank)
    · cases Element.inHead_of_mem_head inHead
    · cases List.mem_singleton.mp inBlank
  have listed := congrArg String.toList same
  rw [toList_elementText, toList_elementText] at listed
  obtain ⟨behind, firstEq⟩ := (Body.ofElement layout mayNest first).braced_begins
  obtain ⟨otherBehind, secondEq⟩ := (Body.ofElement layout mayNest second).braced_begins
  rw [firstEq, secondEq] at listed
  obtain ⟨heads, behinds⟩ := append_mark_inj (noBrace first) (noBrace second) listed
  obtain ⟨tags, lengths⟩ :=
    Element.head_inj (String.toList_inj.mp (List.append_cancel_right heads))
  rw [← behinds, ← firstEq] at secondEq
  exact ⟨tags, lengths, sameShape_of_braced_eq tags (String.toList_inj.mp secondEq.symm)⟩

/-! ## Reading listings -/

theorem blockLines_flat {layout : Layout} {room : Nat} {element : Element}
    (flat : ∀ lead inner,
      Body.ofElement layout (inner? layout room).isSome element ≠ .nested lead inner)
    (level : Nat) : blockLines layout room level element = [] := by
  rw [blockLines]
  split
  · rename_i lead inner shown
    exact absurd shown (flat lead inner)
  · rfl

theorem blockLines_block {layout : Layout} {room : Nat} {element : Element}
    {unused : Option UInt8} {inner : Bytes}
    (opens : OpensBlock layout true element unused inner) (level : Nat) :
    blockLines layout (room + 1) level element =
      (unused.toList.map fun octet => ⟨level + 1, Hex.literal [octet]⟩) ++
        (Entry.linesOf (level + 1) (entries layout room inner) ++ [⟨level, "\x7d"⟩]) := by
  have shown := opens.shown
  rw [blockLines, inner?]
  simp only [Option.isSome_some, shown, Option.map_some, Option.getD_some, List.append_assoc]
  cases unused <;> rfl

theorem mayNest_of_opensBlock {layout : Layout} {mayNest : Bool} {element : Element}
    {unused : Option UInt8} {inner : Bytes}
    (opens : OpensBlock layout mayNest element unused inner) : mayNest = true := by
  have shown := opens.shown
  by_cases empty : element.body = []
  · rw [Body.ofElement_empty layout mayNest empty] at shown
    cases shown
  · rw [Body.ofElement_eq layout mayNest empty, Manner.body] at shown
    split at shown
    · rename_i block
      exact Manner.mayNest_of_block? block
    · cases shown

section Reading

variable {layout : Layout} {indent : String} (blank : IsBlank indent)
include blank

theorem element_ne_end {mayNest : Bool} {level : Nat} {element : Element}
    {rest others : List Line} (isEnd : IsEnd others) :
    print indent (⟨level, elementText layout mayNest element⟩ :: rest) ≠ print indent others := by
  obtain ⟨first, behind, begins, kind⟩ := elementText_begins layout mayNest element
  refine line_ne_end blank (isText_elementText layout mayNest element)
    ⟨first, behind, begins, ?_, ?_⟩ isEnd
  · rintro rfl
    rcases kind with inWord | bracket
    · cases inWord
    · cases bracket
  · rintro rfl
    rcases kind with inWord | bracket
    · cases inWord
    · cases bracket

section Block

variable {room : Nat}
  (innerAlike : ∀ {deeper level : Nat} {first second : Bytes} {rest others : List Line},
    room = deeper + 1 → Closing rest → Closing others →
    print indent (Entry.linesOf level (entries layout deeper first) ++ rest) =
      print indent (Entry.linesOf level (entries layout deeper second) ++ others) →
    Alike layout deeper first second ∧ print indent rest = print indent others)
include innerAlike

theorem elementAlike_of_print_eq {level : Nat} {element other : Element}
    {rest others : List Line}
    (same : print indent (⟨level, elementText layout (inner? layout room).isSome element⟩ ::
        (blockLines layout room level element ++ rest)) =
      print indent (⟨level, elementText layout (inner? layout room).isSome other⟩ ::
        (blockLines layout room level other ++ others))) :
    ElementAlike layout room element other ∧ print indent rest = print indent others := by
  obtain ⟨texts, following⟩ := print_cons_inj blank (isText_elementText ..)
    (isText_elementText ..) same
  obtain ⟨tags, lengths, shape⟩ := elementText_inj texts
  cases shape with
  | flat bodies flat otherFlat =>
      rw [blockLines_flat flat, blockLines_flat otherFlat] at following
      exact ⟨.flat tags lengths bodies, following⟩
  | block opens otherOpens =>
      cases room with
      | zero => cases mayNest_of_opensBlock opens
      | succ room =>
          rw [blockLines_block opens, blockLines_block otherOpens] at following
          simp only [List.append_assoc, List.singleton_append] at following
          obtain ⟨alike, behind⟩ := innerAlike rfl .block .block (print_append_inj following)
          exact ⟨.block tags lengths opens otherOpens alike,
            (print_cons_inj blank isText_brace isText_brace behind).2⟩

theorem elementsAlike_of_print_eq {level : Nat} {elements others : List Element}
    {rest behind : List Line} (isEnd : IsEnd rest) (otherEnd : IsEnd behind)
    (same : print indent (elementLines layout room level elements ++ rest) =
      print indent (elementLines layout room level others ++ behind)) :
    ElementsAlike layout room elements others ∧ print indent rest = print indent behind := by
  induction elements generalizing others with
  | nil =>
      cases others with
      | nil => exact ⟨.nil, same⟩
      | cons other others =>
          rw [elementLines_cons] at same
          exact absurd same.symm (element_ne_end blank isEnd)
  | cons element elements inductionHypothesis =>
      rw [elementLines_cons] at same
      cases others with
      | nil => exact absurd same (element_ne_end blank otherEnd)
      | cons other others =>
          rw [elementLines_cons] at same
          simp only [List.cons_append, List.append_assoc] at same
          obtain ⟨alike, following⟩ := elementAlike_of_print_eq blank innerAlike same
          obtain ⟨later, after⟩ := inductionHypothesis following
          exact ⟨.cons alike later, after⟩

end Block

/-- A listing gives back what it lists and what follows it. -/
theorem alike_of_print_eq {room level : Nat} {first second : Bytes} {rest others : List Line}
    (closing : Closing rest) (otherClosing : Closing others)
    (same : print indent (Entry.linesOf level (entries layout room first) ++ rest) =
      print indent (Entry.linesOf level (entries layout room second) ++ others)) :
    Alike layout room first second ∧ print indent rest = print indent others := by
  rw [linesOf_entries, linesOf_entries, List.append_assoc, List.append_assoc] at same
  -- A block has one level less before the limit, which is where the recursion ends.
  have innerAlike {deeper level : Nat} {first second : Bytes} {rest others : List Line}
      (shallower : room = deeper + 1) (closing : Closing rest) (otherClosing : Closing others)
      (same : print indent (Entry.linesOf level (entries layout deeper first) ++ rest) =
        print indent (Entry.linesOf level (entries layout deeper second) ++ others)) :
      Alike layout deeper first second ∧ print indent rest = print indent others :=
    alike_of_print_eq closing otherClosing same
  obtain ⟨elements, following⟩ := elementsAlike_of_print_eq blank innerAlike
    (isEnd_remainderLines level _ closing) (isEnd_remainderLines level _ otherClosing) same
  obtain ⟨remainders, behind⟩ := remainder_of_print_eq blank closing otherClosing following
  exact ⟨.intro elements remainders, behind⟩
termination_by room
decreasing_by omega

end Reading

/-- With an indentation made of blanks alone, byte strings with the same listing are alike: they
hold elements of the same tags in the same order and the same octets that do not parse, and
their bodies differ only in how numbers are written or inside of blocks, where they are alike
again. -/
theorem alike_of_listing_eq {layout : Layout} (blank : IsBlank layout.indent)
    {first second : Bytes} (same : render layout first = render layout second) :
    Alike layout layout.maxDepth first second := by
  rw [render, render, listing, listing, ← List.append_nil (Entry.linesOf _ _),
    ← List.append_nil (Entry.linesOf _ (entries _ _ second))] at same
  exact (alike_of_print_eq blank .whole .whole same).1

/-- A sequence with an integer, an object identifier and a bit string, and the same sequence with
a longer length, a padded integer and a padded arc. -/
theorem alike_padded_sequences :
    IsBlank "  " ∧
    render {} [0x30, 0x0E, 0x02, 0x01, 0xFF, 0x06, 0x01, 0x2A, 0x03, 0x06, 0x00, 0x30, 0x03, 0x01,
        0x01, 0x00] =
      render {} [0x30, 0x81, 0x11, 0x02, 0x02, 0xFF, 0xFF, 0x06, 0x02, 0x80, 0x2A, 0x03, 0x07,
        0x00, 0x30, 0x81, 0x03, 0x01, 0x01, 0x00] ∧
    Alike {} 64
      [0x30, 0x0E, 0x02, 0x01, 0xFF, 0x06, 0x01, 0x2A, 0x03, 0x06, 0x00, 0x30, 0x03, 0x01, 0x01,
        0x00]
      [0x30, 0x81, 0x11, 0x02, 0x02, 0xFF, 0xFF, 0x06, 0x02, 0x80, 0x2A, 0x03, 0x07, 0x00, 0x30,
        0x81, 0x03, 0x01, 0x01, 0x00] := by
  have blank : IsBlank (Layout.mk "  " 64 true).indent := by
    intro c member
    have blanks : c ∈ List.replicate 2 ' ' := member
    exact List.eq_of_mem_replicate blanks
  have same : render {} [0x30, 0x0E, 0x02, 0x01, 0xFF, 0x06, 0x01, 0x2A, 0x03, 0x06, 0x00, 0x30,
        0x03, 0x01, 0x01, 0x00] =
      render {} [0x30, 0x81, 0x11, 0x02, 0x02, 0xFF, 0xFF, 0x06, 0x02, 0x80, 0x2A, 0x03, 0x07,
        0x00, 0x30, 0x81, 0x03, 0x01, 0x01, 0x00] := by
    decide +kernel
  exact ⟨blank, same, alike_of_listing_eq blank same⟩

end ByteListing.Der
