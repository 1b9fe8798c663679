import ByteListing.Proofs.Der.Reading
import ByteListing.Proofs.Der.Unambiguous
import ByteListing.Proofs.Text.Indentation

/-! # Listings are put together from the listings of their parts

Elements that a byte string begins with are read without regard to what follows them
(`parseAll_append`), so that a listing of elements goes on with the listing of what is behind
them.  A level is only where a line stands: the lines of a block are those of its elements one
level deeper (`linesOf_succ`), and with one level less before the limit they are the lines of the
elements alone.  Since no line holds a line feed, the same can be said of the printed text
(`render_compositional`). -/
set_option autoImplicit false
namespace ByteListing.Der

open ByteListing.Listing (indented indented_print print print_append print_outermost
  raised remainderLines)

/-! ## Elements -/

namespace Element

theorem parseAll_encoded {tag : Tag} {indefinite : Bool} {body octets : Bytes}
    (encoding : Encoding 0 tag indefinite body octets) (rest : Bytes) :
    parseAll (octets ++ rest) =
      (⟨tag, indefinite, body, octets.length⟩ :: (parseAll rest).1, (parseAll rest).2) := by
  have positive : 0 < octets.length := Nat.lt_of_lt_of_le Nat.two_pos encoding.two_le_length
  have inside := Bytes.bounds_append positive rest
  rw [parseAll, Bytes.isEmpty_append positive, parse?_append encoding]
  simp only [Bool.false_eq_true, if_false, dif_pos inside, List.drop_left]

theorem sequence?_eq_some_iff {data : Bytes} {elements : List Element} :
    sequence? data = some elements ↔ parseAll data = (elements, []) := by
  rw [sequence?]
  obtain ⟨found, remaining⟩ := parseAll data
  cases remaining <;> simp

theorem parseAll_append {first : Bytes} {elements : List Element}
    (whole : parseAll first = (elements, [])) (second : Bytes) :
    parseAll (first ++ second) = (elements ++ (parseAll second).1, (parseAll second).2) := by
  induction elements generalizing first with
  | nil =>
      rw [parseAll.eq_def] at whole
      split at whole
      · rename_i empty
        rw [List.isEmpty_iff.mp empty]
        rfl
      · rename_i occupied
        split at whole
        · obtain ⟨-, rfl⟩ := Prod.mk.inj whole
          simp at occupied
        · split at whole
          · cases (Prod.mk.inj whole).1
          · obtain ⟨-, rfl⟩ := Prod.mk.inj whole
            simp at occupied
  | cons element rest inductionHypothesis =>
      cases found : parse? first with
      | none =>
          rw [parseAll, found] at whole
          split at whole <;> cases (Prod.mk.inj whole).1
      | some read =>
          obtain ⟨octets, behind, rfl, encoding, size⟩ := parse?_iff_encoded.mp found
          rw [parseAll_encoded encoding] at whole
          obtain ⟨same, ended⟩ := Prod.mk.inj whole
          obtain ⟨rfl, later⟩ := List.cons.inj same
          have behindWhole : parseAll behind = (rest, []) := Prod.ext later ended
          rw [List.append_assoc, parseAll_encoded encoding, inductionHypothesis behindWhole]
          rfl

theorem parseAll_single {data : Bytes} {element : Element} (read : parse? data = some element)
    (exact : element.encodedLength = data.length) : parseAll data = ([element], []) := by
  obtain ⟨octets, rest, rfl, encoding, size⟩ := parse?_iff_encoded.mp read
  have nothing : rest = [] := by
    rw [exact, List.length_append] at size
    exact List.length_eq_zero_iff.mp (by omega)
  subst nothing
  rw [parseAll_encoded encoding, ← size, parseAll]
  rfl

end Element

/-! ## Lines -/

/-- Listings of elements one behind the other stand one behind the other. -/
theorem linesOf_entries_append (layout : Layout) (room level : Nat) {first : Bytes}
    {elements : List Element} (whole : Element.parseAll first = (elements, []))
    (second : Bytes) :
    Entry.linesOf level (entries layout room (first ++ second)) =
      Entry.linesOf level (entries layout room first) ++
        Entry.linesOf level (entries layout room second) := by
  have joined (others : List Element) : elementLines layout room level (elements ++ others) =
      elementLines layout room level elements ++ elementLines layout room level others := by
    rw [elementLines, List.map_append, linesOf_append]
    rfl
  rw [linesOf_entries, linesOf_entries, linesOf_entries, Element.parseAll_append whole, whole,
    joined]
  simp [remainderLines]

mutual

theorem lines_succ (level : Nat) (entry : Entry) :
    Entry.lines (level + 1) entry = (Entry.lines level entry).map raised := by
  match entry with
  | .empty head => rfl
  | .inline head body comment => rfl
  | .remainder data => rfl
  | .block head lead inner =>
      have deeper := linesOf_succ (level + 1) inner
      simp only [Entry.lines, deeper, List.map_cons, List.map_append, List.map_map]
      rfl

theorem linesOf_succ (level : Nat) (entries : List Entry) :
    Entry.linesOf (level + 1) entries = (Entry.linesOf level entries).map raised := by
  match entries with
  | [] => rfl
  | entry :: rest =>
      rw [Entry.linesOf, Entry.linesOf, lines_succ, linesOf_succ, List.map_append]

end

theorem entries_limit (layout : Layout) (limit room : Nat) :
    entries { layout with maxDepth := limit } room = entries layout room := by
  induction room with
  | zero => rfl
  | succ room inductionHypothesis =>
      rw [entries, entries, inductionHypothesis]
      rfl

/-! ## Line feeds -/

theorem opensBlock_of_nested {layout : Layout} {mayNest : Bool} {element : Element}
    {lead : Option String} {inner : Bytes}
    (shown : Body.ofElement layout mayNest element = .nested lead inner) :
    ∃ unused, Body.OpensBlock layout mayNest element unused inner := by
  by_cases empty : element.body = []
  · rw [Body.ofElement_empty layout mayNest empty] at shown
    cases shown
  · rw [Body.ofElement_eq layout mayNest empty, Manner.body] at shown
    split at shown
    · rename_i unused other block
      cases shown
      exact ⟨unused, opensBlock_of_block? empty block⟩
    · cases shown

section Blocks

variable {layout : Layout} {room : Nat}
  (innerClean : ∀ {deeper level : Nat} {data : Bytes}, room = deeper + 1 →
    ∀ line ∈ Entry.linesOf level (entries layout deeper data), '\n' ∉ line.text.toList)
include innerClean

theorem no_feed_blockLines (level : Nat) (element : Element) :
    ∀ line ∈ blockLines layout room level element, '\n' ∉ line.text.toList := by
  intro line member
  cases shown : Body.ofElement layout (inner? layout room).isSome element with
  | nested lead inner =>
      obtain ⟨unused, opens⟩ := opensBlock_of_nested shown
      cases room with
      | zero => cases mayNest_of_opensBlock opens
      | succ room =>
          rw [blockLines_block opens, List.mem_append, List.mem_append] at member
          rcases member with inLead | inInner | inBrace
          · obtain ⟨octet, -, rfl⟩ := List.mem_map.mp inLead
            exact Hex.no_feed_literal _
          · exact innerClean rfl line inInner
          · obtain rfl := List.mem_singleton.mp inBrace
            exact Listing.isText_brace.noFeed
  | _ =>
      rw [blockLines, shown] at member
      cases member

theorem no_feed_elementLines (level : Nat) (elements : List Element) :
    ∀ line ∈ elementLines layout room level elements, '\n' ∉ line.text.toList := by
  intro line member
  induction elements with
  | nil => cases member
  | cons element rest inductionHypothesis =>
      rw [elementLines_cons, List.mem_cons, List.mem_append] at member
      rcases member with rfl | inOwn | inRest
      · exact (isText_elementText ..).noFeed
      · exact no_feed_blockLines innerClean level element line inOwn
      · exact inductionHypothesis inRest

end Blocks

theorem no_feed_linesOf_entries (layout : Layout) (room level : Nat) (data : Bytes) :
    ∀ line ∈ Entry.linesOf level (entries layout room data), '\n' ∉ line.text.toList := by
  have innerClean {deeper level : Nat} {data : Bytes} (shallower : room = deeper + 1) :
      ∀ line ∈ Entry.linesOf level (entries layout deeper data), '\n' ∉ line.text.toList :=
    no_feed_linesOf_entries layout deeper level data
  rw [linesOf_entries]
  intro line member
  rcases List.mem_append.mp member with inElements | inRemainder
  · exact no_feed_elementLines innerClean level _ line inElements
  · rw [remainderLines] at inRemainder
    split at inRemainder
    · cases inRemainder
    · obtain rfl := List.mem_singleton.mp inRemainder
      exact Hex.no_feed_literal _
termination_by room
decreasing_by omega

/-! ## Texts -/

theorem render_append {layout : Layout} {first : Bytes} {elements : List Element}
    (whole : Element.parseAll first = (elements, [])) (second : Bytes) :
    render layout (first ++ second) = render layout first ++ render layout second := by
  rw [render, listing, linesOf_entries_append layout _ _ whole, print_append]
  rfl

theorem listing_constructed (layout : Layout) {data : Bytes} {element : Element}
    (read : Element.parse? data = some element) (exact : element.encodedLength = data.length)
    (constructed : element.tag.constructed = true) (occupied : element.body ≠ []) (depth : Nat) :
    listing { layout with maxDepth := depth + 1 } data =
      ⟨0, element.head ++ " \x7b"⟩ ::
        ((listing { layout with maxDepth := depth } element.body).map raised ++ [⟨0, "\x7d"⟩]) := by
  have bodyShown : Body.ofElement layout true element = .nested none element.body := by
    simp [Body.ofElement, Body.ofConstructed, constructed, occupied]
  have shown : entries layout (depth + 1) data =
      [.block element.head none (entries layout depth element.body)] := by
    rw [entries, entriesWith, Element.parseAll_single read exact]
    simp [entryWith, bodyShown]
  rw [listing, listing, entries_limit layout (depth + 1), entries_limit layout depth, shown,
    ← linesOf_succ]
  simp [Entry.linesOf, Entry.lines]

/-- Listings are put together from those of their parts, if the indentation holds no line feed.
Behind whole elements the listing goes on as if nothing stood in front, so that elements one behind
the other are listed one behind the other, each as it is listed alone.  A constructed element that
is not empty and has room below it is a line with its head, then the listing of its body with a
limit of one level less, indented once more, and then the brace that closes it. -/
theorem render_compositional (layout : Layout) (noFeed : '\n' ∉ layout.indent.toList) :
    (∀ first second elements, Element.sequence? first = some elements →
      render layout (first ++ second) = render layout first ++ render layout second) ∧
    (∀ (pieces : List Bytes) (rest : Bytes),
      (∀ piece ∈ pieces, ∃ element, Element.parse? piece = some element ∧
        element.encodedLength = piece.length) →
      render layout (pieces.flatten ++ rest) =
        String.join (pieces.map (render layout)) ++ render layout rest) ∧
    ∀ data element depth, Element.parse? data = some element →
      element.encodedLength = data.length → element.tag.constructed = true → element.body ≠ [] →
      render { layout with maxDepth := depth + 1 } data =
        element.head ++ " \x7b\n" ++
          indented layout.indent (render { layout with maxDepth := depth } element.body) ++
          "\x7d\n" := by
  refine ⟨?_, ?_, ?_⟩
  · intro first second elements whole
    exact render_append (Element.sequence?_eq_some_iff.mp whole) second
  · intro pieces rest single
    induction pieces with
    | nil => simp
    | cons piece pieces inductionHypothesis =>
        obtain ⟨element, read, exact⟩ := single piece (List.mem_cons_self ..)
        have later := inductionHypothesis fun other member =>
          single other (List.mem_cons_of_mem _ member)
        rw [List.flatten_cons, List.append_assoc,
          render_append (Element.parseAll_single read exact), later, List.map_cons,
          String.join_cons, String.append_assoc]
  · intro data element depth read exact constructed occupied
    have lines := listing_constructed layout read exact constructed occupied depth
    have bodyText := indented_print noFeed
      (no_feed_linesOf_entries { layout with maxDepth := depth } depth 0 element.body)
    rw [render, lines, print_outermost, print_append, print_outermost, render, listing, bodyText]
    apply String.toList_inj.mp
    simp only [String.toList_append, List.append_assoc]
    rfl

/-- A sequence of open length with a sequence in it, indented with tabs, and an element behind. -/
theorem render_open_sequence :
    '\n' ∉ (Layout.mk "\t" 2 true).indent.toList ∧
    render ⟨"\t", 2, true⟩
        [0x30, 0x80, 0x30, 0x03, 0x02, 0x01, 0x05, 0x00, 0x00, 0x05, 0x00] =
      "SEQUENCE indefinite \x7b\n" ++
        indented "\t" (render ⟨"\t", 1, true⟩ [0x30, 0x03, 0x02, 0x01, 0x05]) ++ "\x7d\n" ++
        render ⟨"\t", 2, true⟩ [0x05, 0x00] := by
  have noFeed : '\n' ∉ (Layout.mk "\t" 2 true).indent.toList := by decide +kernel
  obtain ⟨behind, -, block⟩ := render_compositional ⟨"\t", 2, true⟩ noFeed
  have read : Element.parse? [0x30, 0x80, 0x30, 0x03, 0x02, 0x01, 0x05, 0x00, 0x00] =
      some ⟨⟨.universal, true, 16⟩, true, [0x30, 0x03, 0x02, 0x01, 0x05], 9⟩ := by decide +kernel
  have whole := Element.sequence?_eq_some_iff.mpr (Element.parseAll_single read rfl)
  refine ⟨noFeed, (behind _ [0x05, 0x00] _ whole).trans ?_⟩
  rw [block _ _ 1 read rfl rfl (by decide)]
  rfl

end ByteListing.Der
