import ByteListing.Proofs.Der.Children

/-! # Blocks that are opened on a guess

Bodies of primitive elements are shown as blocks if they look like elements, and bodies of open
length because elements were found in them.  What such a block shows are all of the octets that it
is opened for, down to the last one: nothing in it is left over as a line of octets
(`guessed_blocks_are_whole`).  Other constructed bodies may end in octets that do not parse.

The elements that a listing shows are those of its input and those of every block in it, each read
from behind whole elements (`Shown`).  Their entries are the entries of the listing at their level
(`within_iff`). -/
set_option autoImplicit false
namespace ByteListing.Der

open Body (OpensBlock)

/-! ## Entries in a listing -/

namespace Entry

/-- An entry that stands a number of blocks deep in other entries. -/
inductive Within : (level : Nat) → Entry → List Entry → Prop
  | here {entry : Entry} {entries : List Entry} : entry ∈ entries → Within 0 entry entries
  | inside {level : Nat} {entry : Entry} {head : String} {lead : Option String}
      {inner entries : List Entry} : .block head lead inner ∈ entries → Within level entry inner →
      Within (level + 1) entry entries

theorem lines_infix_of_mem {entry : Entry} {entries : List Entry} (member : entry ∈ entries)
    (level : Nat) : lines level entry <:+: linesOf level entries := by
  obtain ⟨before, after, rfl⟩ := List.append_of_mem member
  refine ⟨linesOf level before, linesOf level after, ?_⟩
  rw [linesOf_append, linesOf, List.append_assoc]

theorem linesOf_infix_block (level : Nat) (head : String) (lead : Option String)
    (inner : List Entry) : linesOf (level + 1) inner <:+: lines level (.block head lead inner) := by
  refine ⟨⟨level, head ++ " \x7b"⟩ :: lead.toList.map fun text => ⟨level + 1, text⟩,
    [⟨level, "\x7d"⟩], ?_⟩
  rw [lines, List.cons_append, List.cons_append]

theorem Within.lines_infix {level : Nat} {entry : Entry} {entries : List Entry}
    (within : Within level entry entries) (outside : Nat) :
    lines (outside + level) entry <:+: linesOf outside entries := by
  induction within generalizing outside with
  | here member => exact lines_infix_of_mem member outside
  | @inside level entry head lead inner entries block _ inductionHypothesis =>
      have deeper := inductionHypothesis (outside + 1)
      rw [Nat.add_right_comm, Nat.add_assoc] at deeper
      exact (deeper.trans (linesOf_infix_block outside head lead inner)).trans
        (lines_infix_of_mem block outside)

end Entry

/-! ## Elements in a listing -/

/-- An element that the listing of `data` shows `level` blocks deep and with room for `left` more,
and what it was read from.  Whole elements stand in front of it, and its own octets are the
beginning of `source`. -/
inductive Shown (layout : Layout) : (room : Nat) → (data : Bytes) → (level left : Nat) →
    (source : Bytes) → Element → Prop
  | outside {room : Nat} {front source : Bytes} {before : List Element} {element : Element} :
      Element.parseAll front = (before, []) → Element.parse? source = some element →
      Shown layout room (front ++ source) 0 room source element
  | inside {room level left : Nat} {front rest source inner : Bytes} {before : List Element}
      {outer element : Element} {lead : Option String} :
      Element.parseAll front = (before, []) → Element.parse? rest = some outer →
      Body.ofElement layout true outer = .nested lead inner →
      Shown layout room inner level left source element →
      Shown layout (room + 1) (front ++ rest) (level + 1) left source element

theorem Shown.read {layout : Layout} {room level left : Nat} {data source : Bytes}
    {element : Element} (shown : Shown layout room data level left source element) :
    Element.parse? source = some element := by
  induction shown with
  | outside _ read => exact read
  | inside _ _ _ _ inductionHypothesis => exact inductionHypothesis

theorem Element.mem_parseAll_iff {data : Bytes} {element : Element} :
    element ∈ (parseAll data).1 ↔
      ∃ front source before, data = front ++ source ∧ parseAll front = (before, []) ∧
        parse? source = some element := by
  constructor
  · intro member
    fun_induction parseAll data with
    | case1 | case2 | case4 => cases member
    | case3 data occupied first read inside following =>
        rename_i inductionHypothesis
        rcases List.mem_cons.mp member with rfl | later
        · refine ⟨[], data, [], rfl, ?_, read⟩
          rw [parseAll]
          rfl
        · obtain ⟨front, source, before, rest, whole, sourceRead⟩ := inductionHypothesis later
          obtain ⟨octets, behind, rfl, encoding, size⟩ := parse?_iff_encoded.mp read
          rw [size, List.drop_left] at rest
          refine ⟨octets ++ front, source,
            ⟨first.tag, first.indefinite, first.body, octets.length⟩ :: before, ?_, ?_, sourceRead⟩
          · rw [rest, List.append_assoc]
          · rw [parseAll_encoded encoding, whole]
  · rintro ⟨front, source, before, rfl, whole, read⟩
    obtain ⟨octets, behind, rfl, encoding, size⟩ := parse?_iff_encoded.mp read
    rw [parseAll_append whole, parseAll_encoded encoding, ← size]
    exact List.mem_append_right before List.mem_cons_self

theorem entries_eq (layout : Layout) (room : Nat) (data : Bytes) :
    entries layout room data =
      (Element.parseAll data).1.map (entryWith layout (inner? layout room)) ++
        (if (Element.parseAll data).2.isEmpty then []
          else [.remainder (Element.parseAll data).2]) := by
  cases room <;> rfl

theorem mem_entries_iff {layout : Layout} {room : Nat} {data : Bytes} {entry : Entry} :
    entry ∈ entries layout room data ↔
      (∃ element ∈ (Element.parseAll data).1,
        entryWith layout (inner? layout room) element = entry) ∨
        (Element.parseAll data).2 ≠ [] ∧ entry = .remainder (Element.parseAll data).2 := by
  rw [entries_eq, List.mem_append, List.mem_map]
  cases (Element.parseAll data).2 <;> simp

/-- Only elements open blocks, and what a block holds is the listing of what it was opened for. -/
theorem entryWith_eq_block_iff {layout : Layout} {room : Nat} {element : Element} {head : String}
    {lead : Option String} {inner : List Entry} :
    entryWith layout (inner? layout room) element = .block head lead inner ↔
      ∃ below expanded, room = below + 1 ∧ head = element.head ∧
        Body.ofElement layout true element = .nested lead expanded ∧
        inner = entries layout below expanded := by
  constructor
  · intro same
    rw [entryWith] at same
    split at same
    · cases same
    · cases same
    · rename_i found expanded nested
      obtain ⟨rfl, rfl, rfl⟩ := Entry.block.inj same
      cases room with
      | zero =>
          obtain ⟨unused, opens⟩ := opensBlock_of_nested nested
          cases mayNest_of_opensBlock opens
      | succ below => exact ⟨below, expanded, rfl, rfl, nested, rfl⟩
  · rintro ⟨below, expanded, rfl, rfl, nested, rfl⟩
    rw [entryWith, inner?, Option.isSome_some, nested]
    rfl

/-- The entries of a listing, however deep, are those of the elements that it shows, and octets that
do not parse. -/
theorem within_iff {layout : Layout} {room level : Nat} {data : Bytes} {entry : Entry}
    (elementEntry : ∀ remaining, entry ≠ .remainder remaining) :
    Entry.Within level entry (entries layout room data) ↔
      ∃ left source element, Shown layout room data level left source element ∧
        entryWith layout (inner? layout left) element = entry := by
  constructor
  · intro within
    generalize listed : entries layout room data = all at within
    induction within generalizing room data with
    | here member =>
        rw [← listed] at member
        rcases mem_entries_iff.mp member with ⟨element, shown, rfl⟩ | ⟨-, remainder⟩
        · obtain ⟨front, source, before, rfl, whole, read⟩ := Element.mem_parseAll_iff.mp shown
          exact ⟨room, source, element, .outside whole read, rfl⟩
        · exact absurd remainder (elementEntry _)
    | inside block _ inductionHypothesis =>
        rw [← listed] at block
        rcases mem_entries_iff.mp block with ⟨outer, shown, opened⟩ | ⟨-, remainder⟩
        · obtain ⟨below, expanded, rfl, rfl, nested, innerListed⟩ :=
            entryWith_eq_block_iff.mp opened
          obtain ⟨left, source, element, deeper, same⟩ :=
            inductionHypothesis elementEntry innerListed.symm
          obtain ⟨front, rest, before, rfl, whole, read⟩ := Element.mem_parseAll_iff.mp shown
          exact ⟨left, source, element, .inside whole read nested deeper, same⟩
        · cases remainder
  · rintro ⟨left, source, element, shown, rfl⟩
    induction shown with
    | outside whole read =>
        refine .here (mem_entries_iff.mpr (.inl ⟨_, ?_, rfl⟩))
        exact Element.mem_parseAll_iff.mpr ⟨_, _, _, rfl, whole, read⟩
    | @inside room _ _ _ _ _ inner _ outer _ lead whole read nested _ inductionHypothesis =>
        have deeper := inductionHypothesis elementEntry
        have opened := entryWith_eq_block_iff.mpr
          ⟨room, inner, rfl, rfl, nested, rfl⟩
        have shown := Element.mem_parseAll_iff.mpr ⟨_, _, _, rfl, whole, read⟩
        exact .inside (mem_entries_iff.mpr (.inl ⟨outer, shown, opened⟩)) deeper

/-! ## What blocks are opened for -/

theorem Manner.isSequence_of_block? {manner : Manner} (primitive : manner ≠ constructed)
    {mayNest : Bool} {data inner : Bytes} {unused : Option UInt8}
    (found : manner.block? mayNest data = some (unused, inner)) :
    Element.isSequence inner = true := by
  rw [block?.eq_def] at found
  split at found
  · exact absurd rfl primitive
  · split at found
    · rename_i nests
      cases found
      exact nests.2
    · cases found
  · split at found
    · rename_i nests
      cases found
      exact nests.2
    · cases found
  · cases found

theorem Manner.ofTag_ne_constructed {tag : Tag} (primitive : tag.constructed = false) :
    ofTag tag ≠ constructed := by
  rw [ofTag, primitive, if_neg Bool.false_ne_true]
  split
  · rw [ofNumber.eq_def]
    intro same
    split at same
    all_goals first | cases same | (split at same <;> cases same)
  · intro same
    cases same

theorem exists_elements_of_primitive {layout : Layout} {element : Element} {lead : Option String}
    {expanded : Bytes} (primitive : element.tag.constructed = false)
    (nested : Body.ofElement layout true element = .nested lead expanded) :
    ∃ children, Element.parseAll expanded = (children, []) := by
  have occupied : element.body ≠ [] := by
    intro empty
    rw [Body.ofElement_empty layout true empty] at nested
    cases nested
  rw [Body.ofElement_eq layout true occupied, Manner.body] at nested
  split at nested
  · rename_i unused inner found
    obtain ⟨-, rfl⟩ := Body.nested.inj nested
    have looks := Manner.isSequence_of_block? (Manner.ofTag_ne_constructed primitive) found
    rw [Element.isSequence] at looks
    split at looks
    · rename_i children sequence
      exact ⟨children, Element.sequence?_eq_some_iff.mp sequence⟩
    · cases looks
  · cases nested

theorem expanded_of_constructed {layout : Layout} {element : Element} {lead : Option String}
    {expanded : Bytes} (constructed : element.tag.constructed = true)
    (nested : Body.ofElement layout true element = .nested lead expanded) :
    expanded = element.body := by
  rw [Body.ofElement, if_pos constructed, Body.ofConstructed] at nested
  split at nested
  · cases nested
  · cases nested
    rfl

/-- Entries that show all of some octets as elements, and nothing as octets that do not parse. -/
structure ShowsAll (layout : Layout) (room : Nat) (expanded : Bytes) (children : List Element)
    (entries : List Entry) : Prop where
  read : Element.parseAll expanded = (children, [])
  size : Element.totalLength children = expanded.length
  shown : entries = children.map (entryWith layout (inner? layout room))
  noRemainder : ∀ remaining, .remainder remaining ∉ entries

theorem showsAll_entries (layout : Layout) (room : Nat) {expanded : Bytes}
    {children : List Element} (whole : Element.parseAll expanded = (children, [])) :
    ShowsAll layout room expanded children (entries layout room expanded) := by
  refine ⟨whole, Element.totalLength_of_parseAll whole, ?_, fun remaining member => ?_⟩
  · rw [entries_eq, whole]
    exact List.append_nil _
  · rcases mem_entries_iff.mp member with ⟨element, -, same⟩ | ⟨occupied, -⟩
    · rw [entryWith] at same
      split at same <;> cases same
    · rw [whole] at occupied
      exact occupied rfl

/-- Wherever and however deep an element of open length was read, its body was found to end behind
these elements. -/
def FoundInSearch (element : Element) (children : List Element) : Prop :=
  ∀ nesting slice, nesting < Element.maxOpenNesting →
    Element.parseNested? (nesting + 1) slice = some element →
    ∃ header rest, slice = header ++ (element.body ++ [0x00, 0x00] ++ rest) ∧
      element.encodedLength = header.length + element.body.length + 2 ∧
      Element.openBodyLength? (Element.parseNested? nesting)
        (element.body ++ [0x00, 0x00] ++ rest) = some element.body.length ∧
      Element.Search (Element.parseNested? nesting) (element.body ++ [0x00, 0x00] ++ rest) children

theorem exists_elements_of_indefinite {layout : Layout} {source : Bytes} {element : Element}
    {lead : Option String} {expanded : Bytes} (read : Element.parse? source = some element)
    (indefinite : element.indefinite = true)
    (nested : Body.ofElement layout true element = .nested lead expanded) :
    ∃ children, expanded = element.body ∧ Element.parseAll expanded = (children, []) ∧
      FoundInSearch element children := by
  have constructed : element.tag.constructed = true := by
    obtain ⟨octets, rest, -, encoding, -⟩ := Element.parse?_iff_encoded.mp read
    rw [indefinite] at encoding
    cases encoding
    assumption
  obtain rfl := expanded_of_constructed constructed nested
  obtain ⟨-, -, children, -, -, -, -, whole⟩ :=
    Element.search_of_open (by decide : 63 < 64) read indefinite
  refine ⟨children, rfl, whole, fun nesting slice inside readAgain => ?_⟩
  obtain ⟨header, rest, found, split, size, ends, search, again⟩ :=
    Element.search_of_open inside readAgain indefinite
  obtain rfl := (Prod.mk.inj (again.symm.trans whole)).1
  exact ⟨header, rest, split, size, ends, search⟩

/-- In every listing, the blocks that are opened for primitive elements and for elements of open
length show all of the octets that they are opened for, as elements.  The elements in a body of open
length are those that were found in search of its end. -/
theorem guessed_blocks_are_whole (layout : Layout) (data : Bytes) :
    (∀ level head lead inner,
      Entry.Within level (.block head lead inner) (entries layout layout.maxDepth data) →
      Entry.lines level (.block head lead inner) <:+: listing layout data ∧
      ∃ left source element, Shown layout layout.maxDepth data level left source element ∧
        entryWith layout (inner? layout left) element = .block head lead inner) ∧
    ∀ level left source element head lead inner,
      Shown layout layout.maxDepth data level left source element →
      entryWith layout (inner? layout left) element = .block head lead inner →
      element.tag.constructed = false ∨ element.indefinite = true →
      ∃ below unused expanded children,
        left = below + 1 ∧ OpensBlock layout true element unused expanded ∧
        ShowsAll layout below expanded children inner ∧
        (element.indefinite = true → Element.parse? source = some element ∧
          expanded = element.body ∧ FoundInSearch element children) := by
  constructor
  · intro level head lead inner within
    have lines := within.lines_infix 0
    rw [Nat.zero_add] at lines
    exact ⟨lines, (within_iff (by nofun)).mp within⟩
  · intro level left source element head lead inner shown opened guessed
    obtain ⟨below, expanded, rfl, -, nested, rfl⟩ := entryWith_eq_block_iff.mp opened
    obtain ⟨unused, opens⟩ := opensBlock_of_nested nested
    by_cases indefinite : element.indefinite = true
    · obtain ⟨children, same, whole, found⟩ :=
        exists_elements_of_indefinite shown.read indefinite nested
      exact ⟨below, unused, expanded, children, rfl, opens, showsAll_entries layout below whole,
        fun _ => ⟨shown.read, same, found⟩⟩
    · have primitive := guessed.resolve_right indefinite
      obtain ⟨children, whole⟩ := exists_elements_of_primitive primitive nested
      exact ⟨below, unused, expanded, children, rfl, opens, showsAll_entries layout below whole,
        fun openLength => absurd openLength indefinite⟩

/-- A sequence of open length, with a string of octets in it that looks like an element. -/
def openSequence : Element := ⟨⟨.universal, true, 16⟩, true, [0x04, 0x02, 0x05, 0x00], 8⟩

def octetString : Element := ⟨⟨.universal, false, 4⟩, false, [0x05, 0x00], 4⟩

theorem guessed_blocks_in_open_sequence :
    Shown {} 64 [0x30, 0x80, 0x04, 0x02, 0x05, 0x00, 0x00, 0x00] 1 63 [0x04, 0x02, 0x05, 0x00]
      octetString ∧
    entryWith {} (inner? {} 63) octetString =
      .block "OCTET_STRING" none [.empty "NULL"] ∧
    ∃ unused expanded children, OpensBlock {} true octetString unused expanded ∧
      ShowsAll {} 62 expanded children [.empty "NULL"] := by
  have outer : Element.parse? [0x30, 0x80, 0x04, 0x02, 0x05, 0x00, 0x00, 0x00] =
      some openSequence := by decide +kernel
  have inner : Element.parse? [0x04, 0x02, 0x05, 0x00] = some octetString := by decide +kernel
  have nothing : Element.parseAll [] = ([], []) := by
    rw [Element.parseAll]
    rfl
  have within : Shown {} 63 ([] ++ [0x04, 0x02, 0x05, 0x00]) 0 63 [0x04, 0x02, 0x05, 0x00]
      octetString := .outside nothing inner
  have shown := Shown.inside nothing outer rfl within
  have null : Element.parse? [0x05, 0x00] = some ⟨⟨.universal, false, 5⟩, false, [], 2⟩ := by
    decide +kernel
  have one := Element.parseAll_single null rfl
  have looks : Element.isSequence [0x05, 0x00] = true := by
    rw [Element.isSequence, Element.sequence?_eq_some_iff.mpr one]
    rfl
  have nested : Body.ofElement {} true octetString = .nested none [0x05, 0x00] := by
    simp [octetString, Body.ofElement, Body.ofPrimitive, Body.ofUniversal, looks]
  have listed : entries {} 62 [0x05, 0x00] = [.empty "NULL"] := by
    rw [entries_eq, one]
    rfl
  have opened := entryWith_eq_block_iff.mpr ⟨62, _, rfl, rfl, nested, listed.symm⟩
  obtain ⟨below, unused, expanded, children, room, opens, whole, -⟩ :=
    (guessed_blocks_are_whole {} _).2 _ _ _ _ _ _ _ shown opened (.inl rfl)
  obtain rfl := Nat.succ.inj room
  exact ⟨shown, opened, unused, expanded, children, opens, whole⟩

end ByteListing.Der
