import ByteListing.Proofs.Der.Expansions
import ByteListing.Proofs.Text.Writer

/-! # The depth limit of listings of elements

No line of a listing is deeper than the limit, and a constructed element at the limit is shown on
one line with all of its body in digits.  The limit decides nothing else: a listing without a line
at the limit is the listing for every higher limit (`entries_of_shallow`).

`writeElements` writes a listing line by line, with one level that is raised and lowered around
blocks and compared with the limit.  It calls itself for every block and is told how many calls
there may be inside one another; as many as the limit are enough (`writeElements_eq_some`). -/
set_option autoImplicit false
namespace ByteListing.Der

open ByteListing.Listing (Writer)

/-! ## Levels -/

theorem Entry.mem_linesOf_iff {level : Nat} {entries : List Entry} {line : Line} :
    line ∈ linesOf level entries ↔ ∃ entry ∈ entries, line ∈ lines level entry := by
  induction entries with
  | nil => simp [linesOf]
  | cons entry rest inductionHypothesis => simp [linesOf, inductionHypothesis]

theorem Entry.exists_line (level : Nat) (entry : Entry) :
    ∃ text, ⟨level, text⟩ ∈ lines level entry := by
  cases entry with
  | empty head => exact ⟨_, List.mem_singleton_self _⟩
  | inline head body comment => exact ⟨_, List.mem_singleton_self _⟩
  | block head lead inner => exact ⟨_, List.mem_cons_self⟩
  | remainder data => exact ⟨_, List.mem_singleton_self _⟩

theorem Entry.level_cases {level : Nat} {entry : Entry} {line : Line}
    (member : line ∈ lines level entry) :
    line.level = level ∨ ∃ head lead inner, entry = .block head lead inner ∧
      (line.level = level + 1 ∨ line ∈ linesOf (level + 1) inner) := by
  cases entry with
  | empty head => exact .inl (congrArg Line.level (List.mem_singleton.mp member))
  | inline head body comment => exact .inl (congrArg Line.level (List.mem_singleton.mp member))
  | remainder data => exact .inl (congrArg Line.level (List.mem_singleton.mp member))
  | block head lead inner =>
      rw [lines, List.mem_cons, List.mem_append, List.mem_append] at member
      rcases member with rfl | (inLead | inInner) | inBrace
      · exact .inl rfl
      · obtain ⟨text, -, rfl⟩ := List.mem_map.mp inLead
        exact .inr ⟨head, lead, inner, rfl, .inl rfl⟩
      · exact .inr ⟨head, lead, inner, rfl, .inr inInner⟩
      · exact .inl (congrArg Line.level (List.mem_singleton.mp inBrace))

theorem exists_below_of_block_mem {layout : Layout} {room : Nat} {data : Bytes} {head : String}
    {lead : Option String} {inner : List Entry}
    (listed : .block head lead inner ∈ entries layout room data) :
    ∃ below expanded, room = below + 1 ∧ inner = entries layout below expanded := by
  rcases mem_entries_iff.mp listed with ⟨element, -, opened⟩ | ⟨-, remainder⟩
  · obtain ⟨below, expanded, rfl, -, -, rfl⟩ := entryWith_eq_block_iff.mp opened
    exact ⟨below, expanded, rfl, rfl⟩
  · cases remainder

theorem level_le_of_mem_linesOf (layout : Layout) (room level : Nat) (data : Bytes) :
    ∀ line ∈ Entry.linesOf level (entries layout room data), line.level ≤ level + room := by
  intro line member
  obtain ⟨entry, listed, inEntry⟩ := Entry.mem_linesOf_iff.mp member
  rcases Entry.level_cases inEntry with here | ⟨head, lead, inner, rfl, belowHere⟩
  · omega
  · obtain ⟨below, expanded, rfl, rfl⟩ := exists_below_of_block_mem listed
    rcases belowHere with inLead | inInner
    · omega
    · have deeper := level_le_of_mem_linesOf layout below (level + 1) expanded line inInner
      omega
termination_by room
decreasing_by omega

/-! ## Higher limits -/

/-- With no line at the limit, there is nothing that a higher limit could show otherwise. -/
theorem entries_of_shallow (layout : Layout) (extra : Nat) {room level : Nat} {data : Bytes}
    (shallow : ∀ line ∈ Entry.linesOf level (entries layout room data), line.level < level + room) :
    entries layout (room + extra) data = entries layout room data := by
  induction room generalizing level data with
  | zero =>
      have nothing : entries layout 0 data = [] := by
        refine List.eq_nil_iff_forall_not_mem.mpr fun entry listed => ?_
        obtain ⟨text, first⟩ := entry.exists_line level
        exact Nat.lt_irrefl level (shallow _ (Entry.mem_linesOf_iff.mpr ⟨entry, listed, first⟩))
      rw [entries_eq, List.append_eq_nil_iff, List.map_eq_nil_iff] at nothing
      rw [entries_eq, entries_eq, nothing.1, nothing.2, List.map_nil, List.map_nil]
  | succ room inductionHypothesis =>
      have later : room + 1 + extra = room + extra + 1 := by omega
      have same (element : Element) (read : element ∈ (Element.parseAll data).1) :
          entryWith layout (inner? layout (room + 1 + extra)) element =
            entryWith layout (inner? layout (room + 1)) element := by
        rw [later, entryWith, entryWith, inner?, inner?]
        simp only [Option.isSome_some, Option.map_some, Option.getD_some]
        cases shown : Body.ofElement layout true element with
        | empty => rfl
        | inline text comment => rfl
        | nested lead inner =>
            have opened := entryWith_eq_block_iff.mpr ⟨room, inner, rfl, rfl, shown, rfl⟩
            have listed := mem_entries_iff.mpr (.inl ⟨element, read, opened⟩)
            have innerSame : entries layout (room + extra) inner = entries layout room inner := by
              refine @inductionHypothesis (level + 1) inner fun line member => ?_
              have inBlock := (Entry.linesOf_infix_block level element.head lead _).subset member
              have bound := shallow line (Entry.mem_linesOf_iff.mpr ⟨_, listed, inBlock⟩)
              omega
            simp only [innerSame]
      rw [entries_eq, entries_eq, List.map_congr_left same]

theorem listing_limit (layout : Layout) (limit : Nat) (data : Bytes) :
    listing { layout with maxDepth := limit } data =
      Entry.linesOf 0 (entries layout limit data) := by
  rw [listing, entries_limit]

theorem listing_of_shallow (layout : Layout) {limit higher : Nat} {data : Bytes}
    (le : limit ≤ higher)
    (shallow : ∀ line ∈ listing { layout with maxDepth := limit } data, line.level < limit) :
    listing { layout with maxDepth := higher } data =
      listing { layout with maxDepth := limit } data := by
  obtain ⟨extra, rfl⟩ := Nat.exists_eq_add_of_le le
  rw [listing_limit] at shallow ⊢
  have shallowEntries : ∀ line ∈ Entry.linesOf 0 (entries layout limit data),
      line.level < 0 + limit := by simpa only [Nat.zero_add] using shallow
  rw [listing_limit, entries_of_shallow layout extra shallowEntries]

/-! ## Constructed elements at the limit -/

theorem Shown.room_eq {layout : Layout} {room level left : Nat} {data source : Bytes}
    {element : Element} (shown : Shown layout room data level left source element) :
    room = level + left := by
  induction shown with
  | outside => exact (Nat.zero_add _).symm
  | inside _ _ _ _ inductionHypothesis => rw [inductionHypothesis, Nat.add_right_comm]

theorem entryWith_constructed_at_limit {layout : Layout} {element : Element}
    (constructed : element.tag.constructed = true) (occupied : element.body ≠ []) :
    entryWith layout (inner? layout 0) element =
      .inline element.head (Hex.literal element.body) none := by
  simp [entryWith, inner?, Body.ofElement, Body.ofConstructed, constructed, occupied]

theorem line_of_constructed_at_limit {layout : Layout} {left : Nat} {data source : Bytes}
    {element : Element}
    (shown : Shown layout layout.maxDepth data layout.maxDepth left source element)
    (constructed : element.tag.constructed = true) (occupied : element.body ≠ []) :
    [⟨layout.maxDepth, element.head ++ " \x7b " ++ Hex.literal element.body ++ " \x7d"⟩] <:+:
      listing layout data := by
  have noRoom : left = 0 := by
    have room := shown.room_eq
    omega
  subst noRoom
  have entry : entryWith layout (inner? layout 0) element =
      .inline element.head (Hex.literal element.body) none :=
    entryWith_constructed_at_limit constructed occupied
  have within := (within_iff (by nofun)).mpr ⟨0, source, element, shown, entry⟩
  have lines := within.lines_infix 0
  rwa [Nat.zero_add, Entry.lines, Entry.commentPart, String.append_empty] at lines

/-! ## Writing with one level -/

/-- Writes an element at the level at hand.  `deeper` writes the elements of a block. -/
def writeElement (layout : Layout) (deeper : Bytes → Writer → Option Writer) (writer : Writer)
    (element : Element) : Option Writer :=
  match Body.ofElement layout (writer.level < layout.maxDepth) element with
  | .empty => some (writer.write (element.head ++ " \x7b\x7d"))
  | .inline text comment =>
    some (writer.write (element.head ++ " \x7b " ++ text ++ " \x7d" ++ Entry.commentPart comment))
  | .nested lead inner =>
    writer.block (element.head ++ " \x7b") fun opened =>
      deeper inner (lead.elim opened opened.write)

def writeElementsWith (layout : Layout) (deeper : Bytes → Writer → Option Writer) (data : Bytes)
    (writer : Writer) : Option Writer :=
  ((Element.parseAll data).1.foldlM (writeElement layout deeper) writer).map fun written =>
    if (Element.parseAll data).2.isEmpty then written
    else written.write (Hex.literal (Element.parseAll data).2)

/-- Writes elements, with as many calls inside one another as there are `frames` for.  There is no
result if that is not enough. -/
def writeElements (layout : Layout) : (frames : Nat) → Bytes → Writer → Option Writer
  | 0 => writeElementsWith layout fun _ _ => none
  | frames + 1 => writeElementsWith layout (writeElements layout frames)

section Writing

variable {layout : Layout}

def Lists (layout : Layout) (level : Nat) (deeper : Bytes → Writer → Option Writer) : Prop :=
  ∀ (inner : Bytes) (opened : Writer), opened.level = level → level ≤ layout.maxDepth →
    deeper inner opened = some (opened.append
      (Entry.linesOf level (entries layout (layout.maxDepth - level) inner)))

theorem isSome_inner? (layout : Layout) (level : Nat) :
    (inner? layout (layout.maxDepth - level)).isSome = decide (level < layout.maxDepth) := by
  cases left : layout.maxDepth - level with
  | zero =>
      have atLimit : ¬ level < layout.maxDepth := by omega
      rw [inner?, decide_eq_false atLimit, Option.isSome_none]
  | succ room =>
      have belowLimit : level < layout.maxDepth := by omega
      rw [inner?, decide_eq_true belowLimit, Option.isSome_some]

theorem writeElement_eq_some {deeper : Bytes → Writer → Option Writer} {writer : Writer}
    (lists : Lists layout (writer.level + 1) deeper) (element : Element) :
    writeElement layout deeper writer element = some (writer.append (Entry.lines writer.level
      (entryWith layout (inner? layout (layout.maxDepth - writer.level)) element))) := by
  rw [writeElement, entryWith, isSome_inner?]
  cases shown : Body.ofElement layout (writer.level < layout.maxDepth) element with
  | empty => rfl
  | inline text comment => rfl
  | nested lead inner =>
      obtain ⟨unused, opens⟩ := opensBlock_of_nested shown
      have below := of_decide_eq_true (mayNest_of_opensBlock opens)
      obtain ⟨room, left⟩ : ∃ room, layout.maxDepth - writer.level = room + 1 :=
        ⟨layout.maxDepth - (writer.level + 1), by omega⟩
      have roomEq : layout.maxDepth - (writer.level + 1) = room := by omega
      have filled (opened : Writer) (level : opened.level = writer.level + 1) :
          deeper inner (lead.elim opened opened.write) = some (opened.append
            ((lead.toList.map fun text => ⟨writer.level + 1, text⟩) ++
              Entry.linesOf (writer.level + 1) (entries layout room inner))) := by
        cases lead with
        | none =>
            rw [← roomEq]
            exact lists inner opened level below
        | some text =>
            have listed := lists inner (opened.write text) level below
            rw [roomEq, Writer.write_eq_append, Writer.append_append, level] at listed
            rw [Option.elim_some, Writer.write_eq_append, level]
            exact listed
      simp only [left, inner?, Option.map_some, Option.getD_some, Entry.lines]
      exact writer.block_eq_some (filled _ rfl)

theorem foldlM_writeElement_eq_some {deeper : Bytes → Writer → Option Writer} {level : Nat}
    (lists : Lists layout (level + 1) deeper) (elements : List Element) {writer : Writer}
    (atLevel : writer.level = level) :
    elements.foldlM (writeElement layout deeper) writer = some (writer.append
      (elementLines layout (layout.maxDepth - level) level elements)) := by
  subst atLevel
  induction elements generalizing writer with
  | nil => exact congrArg some writer.append_nil.symm
  | cons element rest inductionHypothesis =>
      have first := writeElement_eq_some lists element
      have others := @inductionHypothesis (writer.append (Entry.lines writer.level
        (entryWith layout (inner? layout (layout.maxDepth - writer.level)) element))) lists
      rw [List.foldlM_cons, first, Option.bind_eq_bind, Option.bind_some, others,
        Writer.append_append]
      rfl

theorem writeElementsWith_eq_some {deeper : Bytes → Writer → Option Writer} {writer : Writer}
    (lists : Lists layout (writer.level + 1) deeper) (data : Bytes) :
    writeElementsWith layout deeper data writer = some (writer.append
      (Entry.linesOf writer.level (entries layout (layout.maxDepth - writer.level) data))) := by
  rw [writeElementsWith, foldlM_writeElement_eq_some lists _ rfl, Option.map_some, linesOf_entries,
    Listing.remainderLines]
  split
  · rw [List.append_nil]
  · rw [Writer.write_eq_append, Writer.append_append, Writer.level_append]

theorem writeElements_eq_some {frames : Nat} {writer : Writer}
    (enough : layout.maxDepth ≤ writer.level + frames) (data : Bytes) :
    writeElements layout frames data writer = some (writer.append
      (Entry.linesOf writer.level (entries layout (layout.maxDepth - writer.level) data))) := by
  induction frames generalizing data writer with
  | zero =>
      refine writeElementsWith_eq_some (fun inner opened _ within => ?_) data
      omega
  | succ frames inductionHypothesis =>
      refine writeElementsWith_eq_some (fun inner opened level _ => ?_) data
      rw [← level]
      exact inductionHypothesis (by omega) inner

end Writing

/-- No line is deeper than the limit, and neither is the recursion: a writer that counts levels
writes the listing with as many calls inside one another as the limit.  If no line is at the limit,
the text is the same for every higher limit.  A constructed element at the limit is shown on one
line with all octets of its body, if it has any. -/
theorem depth_limit_bounds_nesting (layout : Layout) (data : Bytes) :
    (∀ line ∈ listing layout data, line.level ≤ layout.maxDepth) ∧
    writeElements layout layout.maxDepth data ⟨0, []⟩ = some ⟨0, listing layout data⟩ ∧
    (∀ limit higher, limit ≤ higher →
      (∀ line ∈ listing { layout with maxDepth := limit } data, line.level < limit) →
      render { layout with maxDepth := higher } data =
        render { layout with maxDepth := limit } data) ∧
    ∀ left source element,
      Shown layout layout.maxDepth data layout.maxDepth left source element →
      element.tag.constructed = true → element.body ≠ [] →
      [⟨layout.maxDepth, element.head ++ " \x7b " ++ Hex.literal element.body ++ " \x7d"⟩] <:+:
        listing layout data := by
  refine ⟨?_, ?_, ?_, ?_⟩
  · intro line member
    have bound := level_le_of_mem_linesOf layout layout.maxDepth 0 data line member
    rwa [Nat.zero_add] at bound
  · exact @writeElements_eq_some layout layout.maxDepth ⟨0, []⟩ (Nat.le_add_left ..) data
  · intro limit higher le shallow
    rw [render, render, listing_of_shallow layout le shallow]
  · intro left source element shown constructed occupied
    exact line_of_constructed_at_limit shown constructed occupied

/-- A sequence that holds a sequence with a null in it. -/
def sequenceInSequence : Bytes := [0x30, 0x04, 0x30, 0x02, 0x05, 0x00]

theorem nesting_of_sequence_in_sequence :
    Shown { maxDepth := 1 } 1 sequenceInSequence 1 0 [0x30, 0x02, 0x05, 0x00]
      ⟨⟨.universal, true, 16⟩, false, [0x05, 0x00], 4⟩ ∧
    [⟨1, "SEQUENCE \x7b `0500` \x7d"⟩] <:+: listing { maxDepth := 1 } sequenceInSequence ∧
    (∀ line ∈ listing { maxDepth := 3 } sequenceInSequence, line.level < 3) ∧
    render { maxDepth := 64 } sequenceInSequence = render { maxDepth := 3 } sequenceInSequence := by
  have outer : Element.parse? sequenceInSequence =
      some ⟨⟨.universal, true, 16⟩, false, [0x30, 0x02, 0x05, 0x00], 6⟩ := by decide +kernel
  have inner : Element.parse? [0x30, 0x02, 0x05, 0x00] =
      some ⟨⟨.universal, true, 16⟩, false, [0x05, 0x00], 4⟩ := by decide +kernel
  have nothing : Element.parseAll [] = ([], []) := by decide +kernel
  have shown : Shown { maxDepth := 1 } 1 sequenceInSequence 1 0 [0x30, 0x02, 0x05, 0x00]
      ⟨⟨.universal, true, 16⟩, false, [0x05, 0x00], 4⟩ :=
    Shown.inside nothing outer rfl (Shown.outside nothing inner)
  have shallow : ∀ line ∈ listing { maxDepth := 3 } sequenceInSequence, line.level < 3 := by
    decide +kernel
  obtain ⟨-, -, higher, atLimit⟩ :=
    depth_limit_bounds_nesting { maxDepth := 1 } sequenceInSequence
  exact ⟨shown, atLimit 0 _ _ shown rfl (by decide), shallow, higher 3 64 (by decide) shallow⟩

end ByteListing.Der
