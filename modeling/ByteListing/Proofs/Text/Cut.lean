import ByteListing.Text.Cut

/-! # Where sequences are cut

A sequence is cut at the first place where the mark stands (`cut?_of_first`), so nothing is cut
where it does not stand at all.  Ends without blanks are not trimmed, and a line that was ended
with a line feed, with or without a carriage return, is cut off as it was. -/
set_option autoImplicit false
namespace ByteListing

section

variable {Item : Type} [DecidableEq Item]

theorem cut?_of_first {mark before behind : List Item}
    (first : ∀ front back, before ++ (mark ++ behind) = front ++ (mark ++ back) →
      before.length ≤ front.length) :
    cut? mark (before ++ (mark ++ behind)) = some (before, behind) := by
  induction before with
  | nil =>
      have begins : mark.isPrefixOf (mark ++ behind) = true :=
        List.isPrefixOf_iff_prefix.mpr (List.prefix_append mark behind)
      rw [List.nil_append, cut?.eq_def, if_pos begins, List.drop_left]
  | cons item rest inductionHypothesis =>
      have later : ∀ front back, rest ++ (mark ++ behind) = front ++ (mark ++ back) →
          rest.length ≤ front.length := by
        intro front back whole
        have bound := first (item :: front) back (congrArg (item :: ·) whole)
        exact Nat.le_of_succ_le_succ bound
      have notHere : ¬ mark.isPrefixOf (item :: (rest ++ (mark ++ behind))) = true := by
        intro begins
        obtain ⟨back, whole⟩ := List.isPrefixOf_iff_prefix.mp begins
        exact absurd (first [] back whole.symm) (Nat.not_succ_le_zero rest.length)
      rw [List.cons_append, cut?, if_neg notHere, inductionHypothesis later]
      rfl

theorem cut?_eq_some_iff {mark items before behind : List Item} :
    cut? mark items = some (before, behind) ↔
      items = before ++ (mark ++ behind) ∧
        ∀ front back, items = front ++ (mark ++ back) → before.length ≤ front.length := by
  constructor
  · intro found
    induction items generalizing before with
    | nil =>
        rw [cut?] at found
        split at found
        · rename_i begins
          obtain rfl := List.prefix_nil.mp (List.isPrefixOf_iff_prefix.mp begins)
          cases found
          exact ⟨rfl, fun _ _ _ => Nat.zero_le _⟩
        · cases found
    | cons item rest inductionHypothesis =>
        rw [cut?] at found
        split at found
        · rename_i begins
          obtain ⟨back, whole⟩ := List.isPrefixOf_iff_prefix.mp begins
          cases found
          rw [← whole, List.drop_left]
          exact ⟨rfl, fun _ _ _ => Nat.zero_le _⟩
        · rename_i notHere
          obtain ⟨⟨inner, after⟩, innerFound, same⟩ := Option.map_eq_some_iff.mp found
          cases same
          obtain ⟨whole, first⟩ := inductionHypothesis innerFound
          refine ⟨congrArg (item :: ·) whole, fun front back same => ?_⟩
          cases front with
          | nil => exact absurd (List.isPrefixOf_iff_prefix.mpr ⟨back, same.symm⟩) notHere
          | cons _ others => exact Nat.succ_le_succ (first others back (List.cons.inj same).2)
  · rintro ⟨rfl, first⟩
    exact cut?_of_first first

theorem cut?_eq_none {mark items : List Item}
    (absent : ∀ front back, items ≠ front ++ (mark ++ back)) : cut? mark items = none := by
  induction items with
  | nil =>
      have notHere : ¬ mark.isPrefixOf ([] : List Item) = true := by
        intro begins
        obtain ⟨back, whole⟩ := List.isPrefixOf_iff_prefix.mp begins
        exact absent [] back whole.symm
      rw [cut?, if_neg notHere]
  | cons item rest inductionHypothesis =>
      have notHere : ¬ mark.isPrefixOf (item :: rest) = true := by
        intro begins
        obtain ⟨back, whole⟩ := List.isPrefixOf_iff_prefix.mp begins
        exact absent [] back whole.symm
      have later : ∀ front back, rest ≠ front ++ (mark ++ back) := fun front back whole =>
        absent (item :: front) back (congrArg (item :: ·) whole)
      rw [cut?, if_neg notHere, inductionHypothesis later]
      rfl

theorem cut?_append_ne_none (front mark back : List Item) :
    cut? mark (front ++ (mark ++ back)) ≠ none := by
  induction front with
  | nil =>
      have begins : mark.isPrefixOf (mark ++ back) = true :=
        List.isPrefixOf_iff_prefix.mpr (List.prefix_append mark back)
      rw [List.nil_append, cut?.eq_def, if_pos begins]
      exact Option.some_ne_none _
  | cons item rest inductionHypothesis =>
      rw [List.cons_append, cut?]
      split
      · exact Option.some_ne_none _
      · intro nothing
        exact inductionHypothesis (Option.map_eq_none_iff.mp nothing)

theorem cut?_singleton {item : Item} {before : List Item} (absent : item ∉ before)
    (behind : List Item) : cut? [item] (before ++ item :: behind) = some (before, behind) := by
  have first : ∀ front back, before ++ ([item] ++ behind) = front ++ ([item] ++ back) →
      before.length ≤ front.length := by
    intro front back whole
    refine Nat.le_of_not_lt fun shorter => absent ?_
    have place := congrArg (·[front.length]?) whole
    simp only [List.singleton_append, List.getElem?_append_right (Nat.le_refl _), Nat.sub_self,
      List.getElem?_cons_zero, List.getElem?_append_left shorter] at place
    exact List.mem_of_getElem? place
  exact cut?_of_first first

theorem cut?_singleton_eq_none {item : Item} {items : List Item} (absent : item ∉ items) :
    cut? [item] items = none := by
  refine cut?_eq_none fun front back whole => absent ?_
  rw [whole]
  exact List.mem_append_right front (List.mem_cons_self ..)

theorem withoutEnding?_append (items ending : List Item) :
    withoutEnding? ending (items ++ ending) = some items := by
  have ends : ending.isSuffixOf (items ++ ending) = true :=
    List.isSuffixOf_iff_suffix.mpr (List.suffix_append items ending)
  rw [withoutEnding?, if_pos ends, List.length_append, Nat.add_sub_cancel, List.take_left]

theorem withoutEnding?_singleton_eq_none {item : Item} {items : List Item}
    (other : items.getLast? ≠ some item) : withoutEnding? [item] items = none := by
  have noEnding : ¬ [item].isSuffixOf items = true := by
    intro ends
    obtain ⟨front, whole⟩ := List.isSuffixOf_iff_suffix.mp ends
    rw [← whole, List.getLast?_append] at other
    exact other rfl
  rw [withoutEnding?, if_neg noEnding]

theorem eq_append_of_withoutEnding? {ending items front : List Item}
    (found : withoutEnding? ending items = some front) : items = front ++ ending := by
  rw [withoutEnding?] at found
  split at found
  · rename_i ends
    obtain ⟨lead, rfl⟩ := List.isSuffixOf_iff_suffix.mp ends
    rw [List.length_append, Nat.add_sub_cancel, List.take_left] at found
    rw [Option.some.inj found]
  · cases found

end

section

variable {Item : Type} {blank : Item → Bool}

theorem trim_cons_of_blank {item : Item} (beginsBlank : blank item = true) (items : List Item) :
    trim blank (item :: items) = trim blank items := by
  rw [trim, List.dropWhile_cons_of_pos beginsBlank, ← trim]

theorem dropWhile_eq_self {items : List Item}
    (begins : ∀ item ∈ items.head?, blank item = false) : items.dropWhile blank = items := by
  cases items with
  | nil => rfl
  | cons item rest =>
      have visible := begins item rfl
      rw [List.dropWhile_cons_of_neg (by rw [visible]; exact Bool.false_ne_true)]

theorem trim_eq_self {items : List Item} (begins : ∀ item ∈ items.head?, blank item = false)
    (ends : ∀ item ∈ items.getLast?, blank item = false) : trim blank items = items := by
  have reversed : ∀ item ∈ items.reverse.head?, blank item = false := by
    rw [List.head?_reverse]
    exact ends
  rw [trim, dropWhile_eq_self begins, dropWhile_eq_self reversed, List.reverse_reverse]

theorem trim_blanks {before items after : List Item} (occupied : items ≠ [])
    (leading : ∀ item ∈ before, blank item = true) (trailing : ∀ item ∈ after, blank item = true)
    (begins : ∀ item ∈ items.head?, blank item = false)
    (ends : ∀ item ∈ items.getLast?, blank item = false) :
    trim blank (before ++ (items ++ after)) = items := by
  obtain ⟨first, others, rfl⟩ := List.exists_cons_of_ne_nil occupied
  have inner : (first :: others ++ after).dropWhile blank = first :: others ++ after :=
    dropWhile_eq_self begins
  have reversed : ∀ item ∈ (first :: others).reverse.head?, blank item = false := by
    rw [List.head?_reverse]
    exact ends
  have trailingReversed : ∀ item ∈ after.reverse, blank item = true :=
    fun item member => trailing item (List.mem_reverse.mp member)
  rw [trim, List.dropWhile_append_of_pos leading, inner, List.reverse_append,
    List.dropWhile_append_of_pos trailingReversed, dropWhile_eq_self reversed,
    List.reverse_reverse]

theorem exists_blanks_around_trim (blank : Item → Bool) (items : List Item) :
    ∃ before after, items = before ++ (trim blank items ++ after) ∧
      ∀ item ∈ before ++ after, blank item = true := by
  refine ⟨items.takeWhile blank,
    ((items.dropWhile blank).reverse.takeWhile blank).reverse, ?_, fun item member => ?_⟩
  · rw [trim, ← List.reverse_append, List.takeWhile_append_dropWhile, List.reverse_reverse,
      List.takeWhile_append_dropWhile]
  · rcases List.mem_append.mp member with leading | trailing
    · exact List.all_eq_true.mp List.all_takeWhile item leading
    · exact List.all_eq_true.mp List.all_takeWhile item (List.mem_reverse.mp trailing)

end

namespace Bytes

inductive LineEnd where
  | feed
  | returnFeed
deriving Repr, DecidableEq

def LineEnd.octets : LineEnd → Bytes
  | feed => [0x0A]
  | returnFeed => [0x0D, 0x0A]

theorem isBlank_of_mem_lineEnd {lineEnd : LineEnd} {byte : UInt8}
    (member : byte ∈ lineEnd.octets) : isBlank byte = true := by
  cases lineEnd with
  | feed =>
      obtain rfl := List.mem_singleton.mp member
      rfl
  | returnFeed =>
      simp only [LineEnd.octets, List.mem_cons, List.not_mem_nil, or_false] at member
      rcases member with rfl | rfl <;> rfl

theorem cutLine_append {line : Bytes} (noFeed : 0x0A ∉ line)
    (noReturn : line.getLast? ≠ some 0x0D) (lineEnd : LineEnd) (rest : Bytes) :
    cutLine (line ++ (lineEnd.octets ++ rest)) = (line, rest) := by
  cases lineEnd with
  | feed =>
      rw [LineEnd.octets, List.singleton_append, cutLine, cut?_singleton noFeed]
      simp only [withoutEnding?_singleton_eq_none noReturn, Option.getD_none]
  | returnFeed =>
      have noFeedBefore : (0x0A : UInt8) ∉ line ++ [0x0D] := by
        rw [List.mem_append, not_or]
        exact ⟨noFeed, by decide⟩
      have shape : line ++ (LineEnd.returnFeed.octets ++ rest) =
          (line ++ [0x0D]) ++ 0x0A :: rest := by
        simp only [LineEnd.octets, List.append_assoc, List.cons_append, List.nil_append]
      rw [shape, cutLine, cut?_singleton noFeedBefore]
      simp only [withoutEnding?_append, Option.getD_some]

/-- What is cut off is one line, and behind its end, if it has one, stands what is left. -/
theorem cutLine_split (data : Bytes) :
    0x0A ∉ (cutLine data).1 ∧
      ((∃ lineEnd : LineEnd, data = (cutLine data).1 ++ (lineEnd.octets ++ (cutLine data).2)) ∨
        cutLine data = (data, [])) := by
  rw [cutLine]
  cases found : cut? [0x0A] data with
  | none =>
      refine ⟨fun fed => ?_, .inr rfl⟩
      obtain ⟨front, back, rfl⟩ := List.append_of_mem fed
      exact cut?_append_ne_none front [0x0A] back found
  | some parts =>
      obtain ⟨line, rest⟩ := parts
      obtain ⟨rfl, first⟩ := cut?_eq_some_iff.mp found
      have noFeed : (0x0A : UInt8) ∉ line := by
        intro fed
        obtain ⟨front, back, rfl⟩ := List.append_of_mem fed
        have bound := first front (back ++ ([0x0A] ++ rest)) (by simp)
        rw [List.length_append, List.length_cons] at bound
        omega
      cases returned : withoutEnding? [0x0D] line with
      | none =>
          simp only [returned, Option.getD_none]
          exact ⟨noFeed, .inl ⟨.feed, rfl⟩⟩
      | some shorter =>
          obtain rfl := eq_append_of_withoutEnding? returned
          simp only [returned, Option.getD_some]
          refine ⟨fun fed => noFeed (List.mem_append_left _ fed), .inl ⟨.returnFeed, ?_⟩⟩
          rw [List.append_assoc]
          rfl

theorem mem_of_mem_cutLine {data line rest : Bytes} {byte : UInt8} (noFeed : 0x0A ∉ line)
    (whole : data = line ++ 0x0A :: rest) (member : byte ∈ (cutLine data).1) : byte ∈ line := by
  rw [whole, cutLine, cut?_singleton noFeed] at member
  simp only [withoutEnding?] at member
  split at member
  · exact List.mem_of_mem_take member
  · exact member

theorem mem_front_of_mem_cutLine {front rest : Bytes} {byte : UInt8}
    (member : byte ∈ (cutLine (front ++ 0x0A :: rest)).1) : byte ∈ front := by
  have fed : (0x0A : UInt8) ∈ front ++ 0x0A :: rest :=
    List.mem_append_right front (List.mem_cons_self ..)
  obtain ⟨line, others, whole, noFeed⟩ := List.eq_append_cons_of_mem fed
  have inLine := mem_of_mem_cutLine noFeed whole member
  rcases List.append_eq_append_iff.mp whole with ⟨more, lineEq, feedEq⟩ | ⟨more, frontEq, -⟩
  · cases more with
    | nil => rwa [lineEq, List.append_nil] at inLine
    | cons item _ =>
        obtain rfl := (List.cons.inj feedEq).1
        rw [lineEq] at noFeed
        exact absurd (List.mem_append_right front (List.mem_cons_self ..)) noFeed
  · rw [frontEq]
    exact List.mem_append_left more inLine

end Bytes

end ByteListing
