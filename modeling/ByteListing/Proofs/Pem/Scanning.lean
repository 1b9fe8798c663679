import ByteListing.Proofs.Pem.Reading

/-! # The scan for blocks

A text is scanned for marks that begin a line.  Behind a mark that no block follows the scan goes
on in the middle of a line, and behind a block with the line after its `END` line
(`Span.exists_ending`).  A mark holds no line feed, so that a mark at the beginning of a line is
never half of one that was passed (`Span.mark_le_start`).

`exists_scan` follows the blocks that are found through a text: they stand one behind the other,
and every block that could be read from the beginning of a line is among them or begins inside one
that is. -/
set_option autoImplicit false
namespace ByteListing.Pem

open ByteListing.Bytes (LineEnd cutLine cutLine_split isBlank)

/-! ## Beginnings of lines -/

/-- What stands behind `front` is the beginning of a text or of a line. -/
def AtLine (front : Bytes) : Prop := front = [] ∨ front.getLast? = some 0x0A

theorem AtLine.append {first second : Bytes} (begins : AtLine first) (goesOn : AtLine second) :
    AtLine (first ++ second) := by
  rcases goesOn with rfl | last
  · rwa [List.append_nil]
  · exact .inr (by rw [List.getLast?_append, last, Option.some_or])

theorem AtLine.of_append {first second : Bytes} (atLine : AtLine (first ++ second)) :
    AtLine second := by
  cases last : second.getLast? with
  | none => exact .inl (List.getLast?_eq_none_iff.mp last)
  | some byte =>
      rcases atLine with empty | whole
      · exact .inl (List.append_eq_nil_iff.mp empty).2
      · rw [List.getLast?_append, last, Option.some_or] at whole
        exact .inr (last.trans whole)

theorem exists_line_of_cutLine {data : Bytes} (more : (cutLine data).2 ≠ []) :
    ∃ line, data = line ++ (cutLine data).2 ∧ line.getLast? = some 0x0A := by
  rcases (cutLine_split data).2 with ⟨lineEnd, whole⟩ | alone
  · refine ⟨(cutLine data).1 ++ lineEnd.octets, ?_, ?_⟩
    · rw [List.append_assoc]
      exact whole
    · rw [List.getLast?_append, Armour.getLast?_lineEnd, Option.some_or]
  · rw [alone] at more
    exact absurd rfl more

theorem cutAtLine?_first {mark data before behind : Bytes}
    (found : cutAtLine? mark data = some (before, behind)) :
    ∃ front, data = front ++ (mark ++ behind) ∧ AtLine front ∧
      ∀ other back, data = other ++ (mark ++ back) → AtLine other →
        front.length ≤ other.length := by
  rw [cutAtLine?] at found
  split at found
  · rename_i begins
    obtain ⟨back, rfl⟩ := List.isPrefixOf_iff_prefix.mp begins
    cases found
    rw [List.drop_left]
    exact ⟨[], rfl, .inl rfl, fun _ _ _ _ => Nat.zero_le _⟩
  · rename_i notFirst
    obtain ⟨whole, first⟩ := cut?_eq_some_iff.mp found
    refine ⟨before ++ [0x0A], ?_, ?_, ?_⟩
    · rw [List.append_assoc]
      exact whole
    · exact .inr List.getLast?_concat
    · intro other back same atLine
      rcases atLine with rfl | last
      · exact absurd (List.isPrefixOf_iff_prefix.mpr ⟨back, same.symm⟩) notFirst
      · obtain ⟨lead, rfl⟩ := List.getLast?_eq_some_iff.mp last
        have bound := first lead back (by rw [same, List.append_assoc]; rfl)
        simpa only [List.length_append, List.length_singleton] using Nat.succ_le_succ bound

/-! ## Ends of blocks -/

/-- White space up to the end of a line or of the text, and what stands behind it. -/
inductive BlankToEnd : (tail rest : Bytes) → Prop
  | line {blanks rest : Bytes} (lineEnd : LineEnd) : blanks.all isBlank = true → 0x0A ∉ blanks →
      BlankToEnd (blanks ++ lineEnd.octets) rest
  | text {blanks : Bytes} : blanks.all isBlank = true → 0x0A ∉ blanks → BlankToEnd blanks []

theorem exists_blank_of_cutLine {data : Bytes} (blank : (cutLine data).1.all isBlank = true) :
    ∃ tail, data = tail ++ (cutLine data).2 ∧ BlankToEnd tail (cutLine data).2 := by
  obtain ⟨noFeed, ⟨lineEnd, whole⟩ | alone⟩ := cutLine_split data
  · refine ⟨(cutLine data).1 ++ lineEnd.octets, ?_, .line lineEnd blank noFeed⟩
    rw [List.append_assoc]
    exact whole
  · rw [alone] at blank noFeed ⊢
    exact ⟨data, (List.append_nil data).symm, .text blank noFeed⟩

theorem readHeaders?_split {data rest : Bytes} {headers : List (String × String)}
    (found : readHeaders? data = some (headers, rest)) :
    rest ≠ [] ∧ ∃ front, data = front ++ rest ∧ AtLine front := by
  fun_induction readHeaders? data generalizing headers with
  | case1 data occupied noColon =>
      cases found
      exact ⟨occupied, [], rfl, .inl rfl⟩
  | case2 data occupied key value colon inductionHypothesis =>
      obtain ⟨⟨others, after⟩, later, same⟩ := Option.map_eq_some_iff.mp found
      cases same
      obtain ⟨more, front, whole, atLine⟩ := inductionHypothesis later
      have behind : (cutLine data).2 ≠ [] := by
        rw [whole]
        exact List.append_ne_nil_of_right_ne_nil front more
      obtain ⟨line, first, ended⟩ := exists_line_of_cutLine behind
      refine ⟨more, line ++ front, ?_, .append (.inr ended) atLine⟩
      rw [List.append_assoc, ← whole]
      exact first
  | case3 data empty => cases found

/-- A block that is read goes up to the end of an `END` line of its label. -/
theorem readBlock?_split {text rest : Bytes} {block : Block}
    (read : readBlock? text = some (block, rest)) :
    ∃ lines tail, text = lines ++ (endMark (utf8 block.label) ++ (tail ++ rest)) ∧
      lines.getLast? = some 0x0A ∧ BlankToEnd tail rest := by
  obtain ⟨label, -, linesRead⟩ := Option.bind_eq_some_iff.mp read
  simp only [readLines?, Option.bind_eq_bind, Option.bind_eq_some_iff] at linesRead
  obtain ⟨name, decoded, ⟨headers, more⟩, headersRead, ⟨body, behind⟩, ended, finished⟩ :=
    linesRead
  split at finished
  · rename_i blank
    obtain ⟨contents, -, same⟩ := Option.bind_eq_some_iff.mp finished
    cases same
    obtain ⟨occupied, front, headersWhole, atLine⟩ := readHeaders?_split headersRead
    obtain ⟨between, bodyWhole, bodyAtLine, -⟩ := cutAtLine?_first ended
    obtain ⟨tail, tailWhole, toEnd⟩ := exists_blank_of_cutLine blank
    have following : (cutLine text).2 ≠ [] := by
      rw [headersWhole]
      exact List.append_ne_nil_of_right_ne_nil front occupied
    obtain ⟨line, first, lineEnded⟩ := exists_line_of_cutLine following
    have named : utf8 (String.ofList name) = label := by
      rw [utf8, String.toList_ofList, Utf8.encode_of_decode? decoded]
    have whole : text = line ++ (front ++ between) ++
        (endMark label ++ (tail ++ (cutLine behind).2)) := by
      simp only [List.append_assoc]
      rw [← tailWhole, ← bodyWhole, ← headersWhole]
      exact first
    refine ⟨line ++ (front ++ between), tail, ?_, ?_, toEnd⟩
    · rw [named]
      exact whole
    · rcases AtLine.append (.inr lineEnded) (atLine.append bodyAtLine) with empty | last
      · rw [(List.append_eq_nil_iff.mp empty).1] at lineEnded
        cases lineEnded
      · exact last
  · cases finished

/-! ## Places of blocks -/

/-- A place in a text where a mark stands and a block is read from behind it. -/
@[ext] structure Span (data : Bytes) where
  front : Bytes
  text : Bytes
  block : Block
  rest : Bytes
  whole : data = front ++ (beginMark ++ text)
  read : readBlock? text = some (block, rest)

namespace Span

variable {data : Bytes}

def start (span : Span data) : Nat := span.front.length

def stop (span : Span data) : Nat := data.length - span.rest.length

theorem eq_of_start_eq {first second : Span data} (same : first.start = second.start) :
    first = second := by
  obtain ⟨fronts, others⟩ := List.append_inj (first.whole.symm.trans second.whole) same
  have texts := List.append_cancel_left others
  have results := first.read.symm.trans ((congrArg readBlock? texts).trans second.read)
  obtain ⟨blocks, rests⟩ := Prod.mk.inj (Option.some.inj results)
  exact Span.ext fronts texts blocks rests

theorem exists_ending (span : Span data) :
    ∃ lines tail, data = span.front ++
        (beginMark ++ (lines ++ (endMark (utf8 span.block.label) ++ (tail ++ span.rest)))) ∧
      lines.getLast? = some 0x0A ∧ BlankToEnd tail span.rest := by
  obtain ⟨lines, tail, textSplit, ended, toEnd⟩ := readBlock?_split span.read
  refine ⟨lines, tail, ?_, ended, toEnd⟩
  rw [← textSplit]
  exact span.whole

theorem exists_taken (span : Span data) :
    ∃ taken, data = taken ++ span.rest ∧ taken.length = span.stop ∧ span.start < span.stop := by
  obtain ⟨lines, tail, whole, -, -⟩ := span.exists_ending
  refine ⟨span.front ++ (beginMark ++ (lines ++ (endMark (utf8 span.block.label) ++ tail))),
    ?_, ?_, ?_⟩
  · simp only [List.append_assoc]
    exact whole
  all_goals
    have lengths := congrArg List.length whole
    have long : 0 < beginMark.length := by decide +kernel
    simp only [List.length_append, start, stop] at lengths ⊢
    omega

def after (front : Bytes) (span : Span data) : Span (front ++ data) where
  front := front ++ span.front
  text := span.text
  block := span.block
  rest := span.rest
  whole := by rw [List.append_assoc, ← span.whole]
  read := span.read

theorem start_after (front : Bytes) (span : Span data) :
    (span.after front).start = front.length + span.start :=
  List.length_append

theorem stop_after (front : Bytes) (span : Span data) :
    (span.after front).stop = front.length + span.stop := by
  obtain ⟨taken, whole, -, -⟩ := span.exists_taken
  have lengths := congrArg List.length whole
  simp only [List.length_append] at lengths
  simp only [stop, after, List.length_append]
  omega

theorem exists_inner {front behind : Bytes} (split : data = front ++ behind) (span : Span data)
    (bound : front.length ≤ span.start) :
    ∃ inner : Span behind, span.front = front ++ inner.front := by
  obtain ⟨between, begins⟩ := List.prefix_of_prefix_length_le ⟨behind, split.symm⟩
    ⟨beginMark ++ span.text, span.whole.symm⟩ bound
  have whole : behind = between ++ (beginMark ++ span.text) := by
    have same := split.symm.trans span.whole
    rw [← begins, List.append_assoc] at same
    exact List.append_cancel_left same
  exact ⟨⟨between, span.text, span.block, span.rest, whole, span.read⟩, begins.symm⟩

/-- A mark at the beginning of a line does not begin inside another mark. -/
theorem mark_le_start {front text : Bytes} (whole : data = front ++ (beginMark ++ text))
    (span : Span data) (atLine : AtLine span.front) (behind : front.length < span.start) :
    (front ++ beginMark).length ≤ span.start := by
  -- Otherwise the line feed in front of the later mark would stand in the earlier one.
  refine Nat.le_of_not_lt fun inside => ?_
  have spanPrefix : span.front <+: data := ⟨_, span.whole.symm⟩
  have markPrefix : front ++ beginMark <+: data := ⟨text, by rw [whole, List.append_assoc]⟩
  obtain ⟨inner, frontEq⟩ := List.prefix_of_prefix_length_le
    ((List.prefix_append front beginMark).trans markPrefix) spanPrefix (Nat.le_of_lt behind)
  obtain ⟨more, markEq⟩ := List.prefix_of_prefix_length_le spanPrefix markPrefix
    (Nat.le_of_lt inside)
  rw [← frontEq, List.append_assoc] at markEq
  have noFeed : (0x0A : UInt8) ∉ inner := by
    intro fed
    have markFed := List.mem_append_left more fed
    rw [List.append_cancel_left markEq] at markFed
    exact absurd markFed (by decide +kernel)
  rw [← frontEq] at atLine
  rcases atLine.of_append with rfl | last
  · rw [start, ← frontEq, List.append_nil] at behind
    exact Nat.lt_irrefl _ behind
  · exact noFeed (List.mem_of_getLast? last)

end Span

/-! ## The first block -/

variable {data : Bytes}

theorem not_atLine_of_unmarked (missing : behindMark? data = none) (span : Span data) :
    ¬AtLine span.front := by
  have unmarked : Unmarked beginMark data :=
    unmarked_iff.mpr (Option.map_eq_none_iff.mp missing)
  obtain ⟨occupied, noFeed⟩ := unmarked span.front span.text span.whole
  rintro (empty | last)
  · exact occupied empty
  · exact noFeed last

/-- Behind a mark that is passed over stands every block that could be read, still at the beginning
of a line. -/
theorem behind_failed_mark {behind : Bytes} (found : behindMark? data = some behind)
    (failed : readBlock? behind = none) :
    ∃ front, data = front ++ behind ∧ ∀ span : Span data, AtLine span.front →
      ∃ inner : Span behind, AtLine inner.front ∧ span.start = front.length + inner.start := by
  obtain ⟨⟨before, after⟩, cut, same⟩ := Option.map_eq_some_iff.mp found
  obtain rfl : after = behind := same
  obtain ⟨front, whole, -, first⟩ := cutAtLine?_first cut
  have split : data = front ++ beginMark ++ after := by rw [whole, List.append_assoc]
  refine ⟨front ++ beginMark, split, fun span atLine => ?_⟩
  have bound : front.length ≤ span.start := first _ _ span.whole atLine
  rcases Nat.lt_or_eq_of_le bound with later | here
  · have clear := span.mark_le_start whole atLine later
    obtain ⟨inner, frontEq⟩ := span.exists_inner split clear
    rw [frontEq] at atLine
    exact ⟨inner, atLine.of_append, by rw [Span.start, frontEq, List.length_append, Span.start]⟩
  · obtain ⟨-, others⟩ := List.append_inj (whole.symm.trans span.whole) here
    have read := span.read
    rw [← List.append_cancel_left others, failed] at read
    cases read

theorem not_atLine_of_first?_eq_none (missing : first? data = none) (span : Span data) :
    ¬AtLine span.front := by
  fun_induction first? data with
  | case1 data unmarked => exact not_atLine_of_unmarked unmarked span
  | case2 data behind found result read => cases missing
  | case3 data behind found failed inductionHypothesis =>
      intro atLine
      obtain ⟨front, -, later⟩ := behind_failed_mark found failed
      obtain ⟨inner, innerAtLine, -⟩ := later span atLine
      exact inductionHypothesis missing inner innerAtLine

theorem exists_span_of_first? {block : Block} {rest : Bytes}
    (found : first? data = some (block, rest)) :
    ∃ span : Span data, span.block = block ∧ span.rest = rest ∧
      ∀ candidate : Span data, AtLine candidate.front → span.start ≤ candidate.start := by
  fun_induction first? data with
  | case1 data unmarked => cases found
  | case2 data behind marked result read =>
      cases found
      obtain ⟨⟨before, after⟩, cut, same⟩ := Option.map_eq_some_iff.mp marked
      obtain rfl : after = behind := same
      obtain ⟨front, whole, -, first⟩ := cutAtLine?_first cut
      refine ⟨⟨front, after, block, rest, whole, read⟩, rfl, rfl, fun candidate atLine => ?_⟩
      exact first _ _ candidate.whole atLine
  | case3 data behind marked failed inductionHypothesis =>
      obtain ⟨span, rfl, rfl, first⟩ := inductionHypothesis found
      obtain ⟨front, rfl, later⟩ := behind_failed_mark marked failed
      refine ⟨span.after front, rfl, rfl, fun candidate atLine => ?_⟩
      obtain ⟨inner, innerAtLine, same⟩ := later candidate atLine
      rw [span.start_after, same]
      exact Nat.add_le_add_left (first inner innerAtLine) _

/-! ## All blocks -/

theorem all_of_first? {block : Block} {rest : Bytes} (found : first? data = some (block, rest)) :
    all data = block :: all rest := by
  rw [all]
  split
  · rename_i missing
    rw [missing] at found
    cases found
  · rename_i same
    rw [found] at same
    cases same
    rfl

theorem all_eq_nil_iff : all data = [] ↔ first? data = none := by
  constructor
  · intro nothing
    cases found : first? data with
    | none => rfl
    | some result =>
        rw [all_of_first? found] at nothing
        cases nothing
  · intro missing
    rw [all]
    split
    · rfl
    · rename_i found
      rw [missing] at found
      cases found

structure Scan (data : Bytes) (spans : List (Span data)) : Prop where
  blocks : spans.map Span.block = all data
  apart : spans.Pairwise fun earlier later => earlier.stop ≤ later.start
  first : first? data = spans.head?.map fun span => (span.block, span.rest)
  covers : ∀ candidate : Span data, AtLine candidate.front →
    candidate ∈ spans ∨ ∃ span ∈ spans, span.start < candidate.start ∧ candidate.start < span.stop

theorem Scan.cons {taken rest : Bytes} {span : Span (taken ++ rest)} {spans : List (Span rest)}
    (found : first? (taken ++ rest) = some (span.block, span.rest)) (left : span.rest = rest)
    (ended : span.stop = taken.length)
    (first : ∀ candidate : Span (taken ++ rest), AtLine candidate.front →
      span.start ≤ candidate.start) (scan : Scan rest spans) :
    Scan (taken ++ rest) (span :: spans.map (Span.after taken)) where
  blocks := by
    rw [all_of_first? found, left, List.map_cons, List.map_map, ← scan.blocks]
    rfl
  apart := by
    refine List.pairwise_cons.mpr ⟨fun later member => ?_, List.pairwise_map.mpr ?_⟩
    · obtain ⟨inner, -, rfl⟩ := List.mem_map.mp member
      rw [ended, inner.start_after]
      exact Nat.le_add_right ..
    · refine scan.apart.imp fun {earlier later} apart => ?_
      rw [earlier.stop_after, later.start_after]
      exact Nat.add_le_add_left apart _
  first := found
  covers := by
    intro candidate atLine
    -- A candidate begins with the first block, inside it, or in what stands behind it.
    rcases Nat.lt_or_eq_of_le (first candidate atLine) with later | here
    · by_cases inside : candidate.start < span.stop
      · exact .inr ⟨span, List.mem_cons_self, later, inside⟩
      · rw [ended] at inside
        obtain ⟨inner, frontEq⟩ := candidate.exists_inner rfl (Nat.le_of_not_lt inside)
        have innerAtLine : AtLine inner.front := by
          rw [frontEq] at atLine
          exact atLine.of_append
        obtain rfl : inner.after taken = candidate := by
          refine Span.eq_of_start_eq ?_
          rw [inner.start_after, Span.start, Span.start, frontEq, List.length_append]
        rcases scan.covers inner innerAtLine with member | ⟨outer, member, begins, ends⟩
        · exact .inl (List.mem_cons_of_mem _ (List.mem_map_of_mem member))
        · refine .inr ⟨outer.after taken, ?_, ?_, ?_⟩
          · exact List.mem_cons_of_mem _ (List.mem_map_of_mem member)
          · rw [outer.start_after, inner.start_after]
            exact Nat.add_lt_add_left begins _
          · rw [outer.stop_after, inner.start_after]
            exact Nat.add_lt_add_left ends _
    · obtain rfl := Span.eq_of_start_eq here
      exact .inl List.mem_cons_self

theorem exists_scan (data : Bytes) : ∃ spans, Scan data spans := by
  fun_induction all data with
  | case1 data missing =>
      refine ⟨[], ?_, .nil, missing, fun candidate atLine => ?_⟩
      · rw [all_eq_nil_iff.mpr missing]
        rfl
      · exact absurd atLine (not_atLine_of_first?_eq_none missing candidate)
  | case2 data block rest found inductionHypothesis =>
      obtain ⟨spans, scan⟩ := inductionHypothesis
      obtain ⟨span, rfl, left, first⟩ := exists_span_of_first? found
      obtain ⟨taken, whole, ended, -⟩ := span.exists_taken
      rw [← left] at found
      rw [left] at whole
      subst whole
      exact ⟨_, scan.cons found left ended.symm first⟩

/-- The blocks of a text, each from its mark to the end of its `END` line, stand one behind the
other, and no block that could be read from the beginning of a line is lost: it is among them unless
it begins inside one of them.  However much that no block follows stands in front of the first
block that could be read, it is the first that is found. -/
theorem no_block_is_lost (data : Bytes) :
    ∃ spans : List (Span data),
      spans.map Span.block = all data ∧
      (spans.Pairwise fun earlier later => earlier.stop ≤ later.start) ∧
      (∀ span ∈ spans, span.start < span.stop ∧ span.stop ≤ data.length ∧
        ∃ lines tail, data = span.front ++
            (beginMark ++ (lines ++ (endMark (utf8 span.block.label) ++ (tail ++ span.rest)))) ∧
          lines.getLast? = some 0x0A ∧ BlankToEnd tail span.rest) ∧
      (∀ candidate : Span data, AtLine candidate.front →
        candidate ∈ spans ∨
          ∃ span ∈ spans, span.start < candidate.start ∧ candidate.start < span.stop) ∧
      (∀ candidate : Span data, AtLine candidate.front →
        (∀ other : Span data, candidate.start ≤ other.start) →
        first? data = some (candidate.block, candidate.rest)) ∧
      first? data = spans.head?.map (fun span => (span.block, span.rest)) ∧
      (first? data = none ↔ all data = []) := by
  obtain ⟨spans, scan⟩ := exists_scan data
  refine ⟨spans, scan.blocks, scan.apart, fun span _ => ?_, scan.covers, ?_, scan.first,
    all_eq_nil_iff.symm⟩
  · obtain ⟨taken, -, -, occupied⟩ := span.exists_taken
    exact ⟨occupied, Nat.sub_le .., span.exists_ending⟩
  · intro candidate atLine foremost
    cases found : first? data with
    | none => exact absurd atLine (not_atLine_of_first?_eq_none found candidate)
    | some result =>
        obtain ⟨block, rest⟩ := result
        obtain ⟨span, rfl, rfl, first⟩ := exists_span_of_first? found
        obtain rfl := Span.eq_of_start_eq
          (Nat.le_antisymm (first candidate atLine) (foremost span))
        rfl

end ByteListing.Pem
