import ByteListing.Proofs.Pem.Armour
import ByteListing.Proofs.Text.Utf8Decoding

/-! # Armour is read back

The scans that a block is read with stop where its parts were joined.  A mark is found behind
whole lines that do not begin with it (`cutAtLine?_behind`), headers are read up to the first
line without a colon (`readHeaders?_lines`), and what is left of the body without white space is
the base 64 of the contents (`filter_body`).

`blocks_of_written` puts armour after armour: whatever stands around the blocks, all of them are
found, and the first one comes with exactly the text behind it. -/
set_option autoImplicit false
namespace ByteListing.Pem

open ByteListing.Bytes (LineEnd cutLine cutLine_append isBlank isBlank_of_mem_lineEnd
  mem_front_of_mem_cutLine)

/-! ## Marks behind whole lines -/

theorem mark_inside {mark text rest back : Bytes} (noFeed : 0x0A ∉ mark) (fed : 0x0A ∈ text)
    (same : text ++ rest = mark ++ back) : ∃ others, text = mark ++ others := by
  rcases List.append_eq_append_iff.mp same with ⟨more, markEq, -⟩ | ⟨more, textEq, -⟩
  · rw [markEq] at noFeed
    exact absurd (List.mem_append_left more fed) noFeed
  · exact ⟨more, textEq⟩

section Marks

variable {mark text : Bytes} (unmarked : Unmarked mark text)
include unmarked

theorem no_mark_inside {front others : Bytes} (whole : text = front ++ 0x0A :: others)
    (noFeed : 0x0A ∉ mark) (fed : 0x0A ∈ others) (rest back : Bytes) :
    others ++ rest ≠ mark ++ back := by
  intro same
  obtain ⟨more, begins⟩ := mark_inside noFeed fed same
  have behindFeed : text = (front ++ [0x0A]) ++ (mark ++ more) := by
    rw [whole, begins, List.append_assoc]
    rfl
  refine (unmarked _ _ behindFeed).2 ?_
  rw [List.getLast?_append]
  rfl

theorem cutAtLine?_behind (noFeed : 0x0A ∉ mark)
    (complete : text = [] ∨ text.getLast? = some 0x0A) (rest : Bytes) :
    cutAtLine? mark (text ++ (mark ++ rest)) = some (text.dropLast, rest) := by
  rcases complete with rfl | last
  · have begins : mark.isPrefixOf (mark ++ rest) = true :=
      List.isPrefixOf_iff_prefix.mpr (List.prefix_append mark rest)
    rw [List.nil_append, cutAtLine?, if_pos begins, List.drop_left]
    rfl
  · obtain ⟨lead, whole⟩ := List.getLast?_eq_some_iff.mp last
    have fed : (0x0A : UInt8) ∈ text := List.mem_of_getLast? last
    have notFirst : ¬ mark.isPrefixOf (text ++ (mark ++ rest)) = true := by
      intro begins
      obtain ⟨back, same⟩ := List.isPrefixOf_iff_prefix.mp begins
      obtain ⟨more, atOnce⟩ := mark_inside noFeed fed same.symm
      exact (unmarked [] more atOnce).1 rfl
    have first : ∀ front back,
        lead ++ (0x0A :: mark ++ rest) = front ++ (0x0A :: mark ++ back) →
        lead.length ≤ front.length := by
      intro front back same
      rcases List.append_eq_append_iff.mp same with ⟨more, frontEq, -⟩ | ⟨more, leadEq, behind⟩
      · rw [frontEq, List.length_append]
        exact Nat.le_add_right ..
      · cases more with
        | nil =>
            exact Nat.le_of_eq (by rw [leadEq, List.append_nil])
        | cons byte others =>
            obtain ⟨rfl, later⟩ := List.cons.inj behind
            have line : text = front ++ 0x0A :: (others ++ [0x0A]) := by
              rw [whole, leadEq, List.append_assoc]
              rfl
            have inside : (others ++ [0x0A]) ++ (mark ++ rest) = mark ++ back := by
              rw [List.append_assoc]
              exact later.symm
            exact absurd inside (no_mark_inside unmarked line noFeed
              (List.mem_append_right others (List.mem_singleton_self _)) _ _)
    have shape : text ++ (mark ++ rest) = lead ++ (0x0A :: mark ++ rest) := by
      rw [whole, List.append_assoc]
      rfl
    rw [cutAtLine?, if_neg notFirst, shape, cut?_of_first first, whole, List.dropLast_concat]

theorem cutAtLine?_eq_none : cutAtLine? mark text = none := by
  have notFirst : ¬ mark.isPrefixOf text = true := by
    intro begins
    obtain ⟨back, same⟩ := List.isPrefixOf_iff_prefix.mp begins
    exact (unmarked [] back same.symm).1 rfl
  rw [cutAtLine?, if_neg notFirst]
  refine cut?_eq_none fun front back whole => ?_
  have behindFeed : text = (front ++ [0x0A]) ++ (mark ++ back) := by
    rw [whole, List.append_assoc]
    rfl
  refine (unmarked _ _ behindFeed).2 ?_
  rw [List.getLast?_append]
  rfl

end Marks

theorem unmarked_iff {mark text : Bytes} : Unmarked mark text ↔ cutAtLine? mark text = none := by
  refine ⟨cutAtLine?_eq_none, fun nothing front back whole => ⟨?_, fun last => ?_⟩⟩
  · rintro rfl
    have begins : mark.isPrefixOf text = true :=
      List.isPrefixOf_iff_prefix.mpr ⟨back, whole.symm⟩
    rw [cutAtLine?, if_pos begins] at nothing
    cases nothing
  · obtain ⟨before, rfl⟩ := List.getLast?_eq_some_iff.mp last
    have behindFeed : text = before ++ ((0x0A :: mark) ++ back) := by
      rw [whole, List.append_assoc]
      rfl
    rw [cutAtLine?] at nothing
    split at nothing
    · cases nothing
    · rw [behindFeed] at nothing
      exact cut?_append_ne_none _ _ _ nothing

instance (mark text : Bytes) : Decidable (Unmarked mark text) :=
  decidable_of_iff _ unmarked_iff.symm

/-! ## Headers -/

theorem headerText_utf8 {text : String} (tidy : IsTidy text) : headerText (utf8 text) = text := by
  rw [headerText, trim_eq_self tidy.begins tidy.ends, utf8, Utf8.decodeLossy_encode,
    String.ofList_toList]

theorem headerText_blank {text : String} (tidy : IsTidy text) :
    headerText (0x20 :: utf8 text) = text := by
  rw [headerText, trim_cons_of_blank rfl, ← headerText, headerText_utf8 tidy]

namespace HeaderLine

variable (header : HeaderLine)

def line : Bytes := utf8 header.key ++ 0x3A :: 0x20 :: utf8 header.value

theorem no_feed_line : 0x0A ∉ header.line := by
  intro member
  rcases List.mem_append.mp member with inKey | inValue
  · exact header.tidyKey.noFeed inKey
  · simp only [List.mem_cons] at inValue
    rcases inValue with colon | blank | inValue
    · cases colon
    · cases blank
    · exact header.tidyValue.noFeed inValue

theorem no_return_line : header.line.getLast? ≠ some 0x0D := by
  have shape : header.line = (utf8 header.key ++ [0x3A, 0x20]) ++ utf8 header.value := by
    rw [line, List.append_assoc]
    rfl
  intro last
  rw [shape, List.getLast?_append] at last
  cases valueLast : (utf8 header.value).getLast? with
  | none =>
      rw [valueLast, List.getLast?_append] at last
      cases last
  | some byte =>
      have visible := header.tidyValue.ends byte valueLast
      rw [valueLast] at last
      cases last
      cases visible

end HeaderLine

theorem readHeaders?_lines (headers : List HeaderLine) {rest : Bytes} (more : rest ≠ [])
    (noColon : 0x3A ∉ (cutLine rest).1) :
    readHeaders? (headers.flatMap HeaderLine.octets ++ rest) =
      some (headers.map fun header => (header.key, header.value), rest) := by
  induction headers with
  | nil =>
      rw [List.flatMap_nil, List.nil_append, readHeaders?, dif_pos more]
      split
      · rfl
      · rename_i found
        rw [cut?_singleton_eq_none noColon] at found
        cases found
  | cons header others inductionHypothesis =>
      have shape : (header :: others).flatMap HeaderLine.octets ++ rest =
          header.line ++ (header.lineEnd.octets ++
            (others.flatMap HeaderLine.octets ++ rest)) := by
        simp only [List.flatMap_cons, HeaderLine.octets, HeaderLine.line, List.append_assoc]
      have occupied : header.line ++ (header.lineEnd.octets ++
          (others.flatMap HeaderLine.octets ++ rest)) ≠ [] := by
        simp [HeaderLine.line]
      have cut := cutLine_append header.no_feed_line header.no_return_line header.lineEnd
        (others.flatMap HeaderLine.octets ++ rest)
      have parts : cut? [0x3A] header.line =
          some (utf8 header.key, 0x20 :: utf8 header.value) :=
        cut?_singleton header.noColon _
      rw [shape, readHeaders?, dif_pos occupied, cut]
      split
      · rename_i found
        rw [parts] at found
        cases found
      · rename_i key value found
        rw [parts] at found
        cases found
        rw [inductionHypothesis, Option.map_some, headerText_utf8 header.tidyKey,
          headerText_blank header.tidyValue]
        rfl

/-! ## Bodies -/

theorem mem_dashes {byte : UInt8} (member : byte ∈ dashes) : byte = 0x2D := by
  have all : dashes.all (· == 0x2D) = true := by decide +kernel
  exact beq_iff_eq.mp (List.all_eq_true.mp all byte member)

theorem endMark_eq (label : Bytes) : ∃ others, endMark label = 0x2D :: others := by
  have begins : ∃ others, Utf8.encode "-----END ".toList = 0x2D :: others :=
    ⟨Utf8.encode "----END ".toList, by decide +kernel⟩
  obtain ⟨others, begins⟩ := begins
  rw [endMark, begins, List.cons_append, List.cons_append]
  exact ⟨_, rfl⟩

/-- What holds of the label and of what stands around it holds of the `END` mark. -/
theorem not_mem_endMark {byte : UInt8} {label : Bytes} (absent : byte ∉ label)
    (noWord : byte ∉ Utf8.encode "-----END ".toList) (noDash : byte ≠ 0x2D) :
    byte ∉ endMark label := by
  intro member
  rw [endMark, List.append_assoc, List.mem_append, List.mem_append] at member
  rcases member with inWord | inLabel | inDashes
  · exact noWord inWord
  · exact absent inLabel
  · exact noDash (mem_dashes inDashes)

namespace Armour

variable (armour : Armour)

theorem mem_body {byte : UInt8} (member : byte ∈ armour.body) :
    isBlank byte = true ∨ byte ∈ Base64.encode armour.contents := by
  rw [body, List.mem_append] at member
  rcases member with inEmpty | inLines
  · obtain ⟨lineEnd, -, inEnd⟩ := List.mem_flatMap.mp inEmpty
    exact .inl (isBlank_of_mem_lineEnd inEnd)
  · obtain ⟨line, listed, inLine⟩ := List.mem_flatMap.mp inLines
    rw [BodyLine.octets, List.mem_append] at inLine
    rcases inLine with inText | inEnd
    · refine .inr ?_
      rw [← armour.broken]
      exact List.mem_flatMap.mpr ⟨line, listed, inText⟩
    · exact .inl (isBlank_of_mem_lineEnd inEnd)

theorem no_colon_body : 0x3A ∉ armour.body := by
  intro member
  rcases armour.mem_body member with blank | inText
  · cases blank
  · exact (Base64.plain_of_mem_encode inText).1 rfl

theorem no_dash_body : 0x2D ∉ armour.body := by
  intro member
  rcases armour.mem_body member with blank | inText
  · cases blank
  · exact (Base64.plain_of_mem_encode inText).2.1 rfl

theorem unmarked_body : Unmarked (endMark (utf8 armour.label)) armour.body := by
  intro front back whole
  obtain ⟨others, begins⟩ := endMark_eq (utf8 armour.label)
  refine absurd ?_ armour.no_dash_body
  rw [whole, begins]
  exact List.mem_append_right front (List.mem_cons_self ..)

theorem getLast?_lineEnd (lineEnd : LineEnd) : lineEnd.octets.getLast? = some 0x0A := by
  cases lineEnd <;> rfl

theorem getLast?_lines (lines : List BodyLine) :
    lines.flatMap BodyLine.octets = [] ∨
      (lines.flatMap BodyLine.octets).getLast? = some 0x0A := by
  induction lines with
  | nil => exact .inl rfl
  | cons line others inductionHypothesis =>
      refine .inr ?_
      rw [List.flatMap_cons, List.getLast?_append, BodyLine.octets, List.getLast?_append,
        getLast?_lineEnd]
      rcases inductionHypothesis with noneLeft | last
      · rw [noneLeft]
        rfl
      · rw [last]
        rfl

theorem complete_body : armour.body = [] ∨ armour.body.getLast? = some 0x0A := by
  rw [body, List.getLast?_append]
  rcases getLast?_lines armour.lines with noLines | last
  · rw [noLines, List.append_nil]
    cases armour.emptyLine with
    | none => exact .inl rfl
    | some lineEnd =>
        refine .inr ?_
        rw [Option.toList_some, List.flatMap_singleton, getLast?_lineEnd]
        rfl
  · rw [last]
    exact .inr rfl

theorem filter_lineEnd (lineEnd : LineEnd) :
    lineEnd.octets.filter (fun byte => !isBlank byte) = [] := by
  cases lineEnd <;> rfl

theorem filter_lines {lines : List BodyLine}
    (visible : ∀ byte ∈ lines.flatMap BodyLine.text, isBlank byte = false) :
    (lines.flatMap BodyLine.octets).filter (fun byte => !isBlank byte) =
      lines.flatMap BodyLine.text := by
  induction lines with
  | nil => rfl
  | cons line others inductionHypothesis =>
      simp only [List.flatMap_cons, List.mem_append] at visible ⊢
      have kept : line.text.filter (fun byte => !isBlank byte) = line.text :=
        List.filter_eq_self.mpr fun byte member => by rw [visible byte (.inl member)]; rfl
      rw [List.filter_append, BodyLine.octets, List.filter_append, filter_lineEnd, kept,
        List.append_nil, inductionHypothesis fun byte member => visible byte (.inr member)]

theorem filter_body :
    armour.body.filter (fun byte => !isBlank byte) = Base64.encode armour.contents := by
  have noEmpty : (armour.emptyLine.toList.flatMap LineEnd.octets).filter
      (fun byte => !isBlank byte) = [] := by
    cases armour.emptyLine with
    | none => rfl
    | some lineEnd => rw [Option.toList_some, List.flatMap_singleton, filter_lineEnd]
  have visible : ∀ byte ∈ armour.lines.flatMap BodyLine.text, isBlank byte = false := by
    intro byte member
    rw [armour.broken] at member
    exact (Base64.plain_of_mem_encode member).2.2
  rw [body, List.filter_append, noEmpty, List.nil_append, filter_lines visible, armour.broken]

theorem filter_dropLast_body :
    armour.body.dropLast.filter (fun byte => !isBlank byte) =
      Base64.encode armour.contents := by
  rw [← filter_body]
  rcases armour.complete_body with empty | last
  · rw [empty]
    rfl
  · obtain ⟨lead, whole⟩ := List.getLast?_eq_some_iff.mp last
    rw [whole, List.dropLast_concat, List.filter_append]
    exact (List.append_nil _).symm

/-! ## Blocks -/

theorem no_colon_closing : 0x3A ∉ armour.body ++ endMark (utf8 armour.label) := by
  rw [List.mem_append, not_or]
  exact ⟨armour.no_colon_body, not_mem_endMark armour.noColon (by decide +kernel) (by decide)⟩

theorem no_colon_behind_headers (rest : Bytes) :
    0x3A ∉ (cutLine (armour.body ++ (armour.ending ++ rest))).1 := by
  obtain ⟨before, ends⟩ := List.getLast?_eq_some_iff.mp (getLast?_lineEnd armour.endEnd)
  have shape : armour.body ++ (armour.ending ++ rest) =
      (armour.body ++ endMark (utf8 armour.label) ++ before) ++ 0x0A :: rest := by
    rw [ending, ends]
    simp only [List.append_assoc, List.singleton_append]
  intro member
  rw [shape] at member
  have inFront := mem_front_of_mem_cutLine member
  rw [List.mem_append] at inFront
  rcases inFront with inClosing | inEnd
  · exact armour.no_colon_closing inClosing
  · have inLineEnd : (0x3A : UInt8) ∈ armour.endEnd.octets := by
      rw [ends]
      exact List.mem_append_left _ inEnd
    cases isBlank_of_mem_lineEnd inLineEnd

theorem readLines?_armour (rest : Bytes) :
    readLines? (utf8 armour.label)
        (armour.headers.flatMap HeaderLine.octets ++ (armour.body ++ (armour.ending ++ rest))) =
      some (armour.block, rest) := by
  have noFeed : (0x0A : UInt8) ∉ endMark (utf8 armour.label) :=
    not_mem_endMark armour.tidyLabel.noFeed (by decide +kernel) (by decide)
  have more : armour.body ++ (armour.ending ++ rest) ≠ [] := by
    obtain ⟨others, begins⟩ := endMark_eq (utf8 armour.label)
    simp [ending, begins]
  have named : Utf8.decode? (utf8 armour.label) = some armour.label.toList :=
    Utf8.decode?_encode _
  have headers := readHeaders?_lines armour.headers more (armour.no_colon_behind_headers rest)
  have found : cutAtLine? (endMark (utf8 armour.label))
      (armour.body ++ (armour.ending ++ rest)) =
        some (armour.body.dropLast, armour.endEnd.octets ++ rest) := by
    rw [ending, List.append_assoc]
    exact cutAtLine?_behind armour.unmarked_body noFeed armour.complete_body _
  have tail : cutLine (armour.endEnd.octets ++ rest) = ([], rest) :=
    cutLine_append List.not_mem_nil nofun armour.endEnd rest
  simp only [readLines?, named, headers, found, tail, Option.bind_eq_bind, Option.bind_some,
    List.all_nil, if_true, filter_dropLast_body, Base64.decode?_encode, String.ofList_toList,
    block]

theorem label?_line : label? (utf8 armour.label ++ dashes) = some (utf8 armour.label) := by
  have begins : ∀ byte ∈ (utf8 armour.label ++ dashes).head?, isBlank byte = false := by
    cases labelEq : utf8 armour.label with
    | nil => decide +kernel
    | cons first others =>
        have visible := armour.tidyLabel.begins first (by rw [labelEq]; rfl)
        rintro byte ⟨⟩
        exact visible
  have ends : ∀ byte ∈ (utf8 armour.label ++ dashes).getLast?, isBlank byte = false := by
    have last : dashes.getLast? = some 0x2D := by decide +kernel
    rw [List.getLast?_append, last]
    rintro byte ⟨⟩
    rfl
  rw [label?, trim_eq_self begins ends, withoutEnding?_append]

/-- Armour is read back from behind the mark that begins it, whatever follows it. -/
theorem readBlock?_armour (rest : Bytes) :
    readBlock? (utf8 armour.label ++ dashes ++ armour.beginEnd.octets ++
        armour.headers.flatMap HeaderLine.octets ++ armour.body ++ armour.ending ++ rest) =
      some (armour.block, rest) := by
  have noFeed : (0x0A : UInt8) ∉ utf8 armour.label ++ dashes := by
    rw [List.mem_append, not_or]
    refine ⟨armour.tidyLabel.noFeed, fun member => ?_⟩
    cases mem_dashes member
  have noReturn : (utf8 armour.label ++ dashes).getLast? ≠ some 0x0D := by
    have last : dashes.getLast? = some 0x2D := by decide +kernel
    rw [List.getLast?_append, last]
    nofun
  have cut := cutLine_append noFeed noReturn armour.beginEnd
    (armour.headers.flatMap HeaderLine.octets ++ (armour.body ++ (armour.ending ++ rest)))
  simp only [List.append_assoc] at cut ⊢
  rw [readBlock?, cut]
  have labelled := armour.label?_line
  have lines := armour.readLines?_armour rest
  simp only [labelled, Option.bind_some, lines]

end Armour

/-! ## Texts -/

theorem first?_armour (gap : Gap) (armour : Armour) (rest : Bytes) :
    first? (gap.text ++ (armour.octets ++ rest)) = some (armour.block, rest) := by
  have noFeed : (0x0A : UInt8) ∉ beginMark := by decide +kernel
  have behind : behindMark? (gap.text ++ (armour.octets ++ rest)) =
      some (utf8 armour.label ++ dashes ++ armour.beginEnd.octets ++
        armour.headers.flatMap HeaderLine.octets ++ armour.body ++ armour.ending ++ rest) := by
    rw [behindMark?, Armour.octets, List.append_assoc beginMark,
      cutAtLine?_behind gap.unmarked noFeed gap.complete]
    rfl
  rw [first?]
  split
  · rename_i missing
    rw [behind] at missing
    cases missing
  · rename_i found
    rw [behind] at found
    cases found
    rw [armour.readBlock?_armour rest]

theorem first?_unmarked {tail : Bytes} (unmarked : Unmarked beginMark tail) :
    first? tail = none := by
  have nothing : behindMark? tail = none := by
    rw [behindMark?, cutAtLine?_eq_none unmarked]
    rfl
  rw [first?]
  split
  · rfl
  · rename_i found
    rw [nothing] at found
    cases found

theorem first?_written (parts : List (Gap × Armour)) {tail : Bytes}
    (unmarked : Unmarked beginMark tail) :
    first? (written parts tail) =
      match parts with
      | [] => none
      | (_, armour) :: others => some (armour.block, written others tail) := by
  cases parts with
  | nil => exact first?_unmarked unmarked
  | cons part others =>
      have shape : written (part :: others) tail =
          part.1.text ++ (part.2.octets ++ written others tail) := by
        simp only [written, List.flatMap_cons, List.append_assoc]
      rw [shape, first?_armour]

theorem all_written (parts : List (Gap × Armour)) {tail : Bytes}
    (unmarked : Unmarked beginMark tail) :
    all (written parts tail) = parts.map fun part => part.2.block := by
  induction parts with
  | nil =>
      rw [all]
      split
      · rfl
      · rename_i found
        rw [first?_written [] unmarked] at found
        cases found
  | cons part others inductionHypothesis =>
      rw [all]
      split
      · rename_i missing
        rw [first?_written (part :: others) unmarked] at missing
        cases missing
      · rename_i found
        rw [first?_written (part :: others) unmarked] at found
        cases found
        rw [inductionHypothesis, List.map_cons]

/-- All blocks of a text are found, in order and whatever stands around them, and the first one
comes with exactly the text behind its `END` line. -/
theorem blocks_of_written (parts : List (Gap × Armour)) (tail : Bytes)
    (unmarked : Unmarked beginMark tail) :
    all (written parts tail) = parts.map (fun part => part.2.block) ∧
    first? (written parts tail) =
      match parts with
      | [] => none
      | (_, armour) :: others => some (armour.block, written others tail) :=
  ⟨all_written parts unmarked, first?_written parts unmarked⟩

/-- A gap whose mark does not begin a line. -/
def mentioned : Gap where
  text := utf8 "see -----BEGIN below\n"
  complete := .inr (by decide +kernel)
  unmarked := by decide +kernel

/-- A block of three octets with a header, an empty line and a broken body. -/
def note : Armour where
  label := "NOTE"
  headers := [{
    key := "Proc-Type", value := "4:E", lineEnd := .returnFeed, noColon := by decide +kernel
    tidyKey := ⟨by decide +kernel, by decide +kernel, by decide +kernel⟩
    tidyValue := ⟨by decide +kernel, by decide +kernel, by decide +kernel⟩ }]
  contents := [1, 2, 3]
  beginEnd := .feed
  emptyLine := some .returnFeed
  lines := [⟨utf8 "A", .feed⟩, ⟨utf8 "QID", .returnFeed⟩]
  endEnd := .feed
  tidyLabel := ⟨by decide +kernel, by decide +kernel, by decide +kernel⟩
  noColon := by decide +kernel
  broken := by decide +kernel

/-- Behind the blocks even a mark that is not complete may begin a line. -/
theorem blocks_of_two_notes :
    Unmarked beginMark (utf8 "-----BEGIN") ∧
    all (written [(mentioned, note), (mentioned, note)] (utf8 "-----BEGIN")) =
      [⟨"NOTE", [("Proc-Type", "4:E")], [1, 2, 3]⟩, ⟨"NOTE", [("Proc-Type", "4:E")], [1, 2, 3]⟩] ∧
    first? (written [(mentioned, note), (mentioned, note)] (utf8 "-----BEGIN")) =
      some (⟨"NOTE", [("Proc-Type", "4:E")], [1, 2, 3]⟩,
        written [(mentioned, note)] (utf8 "-----BEGIN")) := by
  have unmarked : Unmarked beginMark (utf8 "-----BEGIN") := by decide +kernel
  exact ⟨unmarked, blocks_of_written _ _ unmarked⟩

end ByteListing.Pem
