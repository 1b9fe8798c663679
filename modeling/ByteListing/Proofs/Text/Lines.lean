import ByteListing.Listing

/-! # Lines read back

A listing that is indented with blanks alone gives its texts back, if none of them starts with
a blank or holds a line feed (`Listing.print_cons_inj`).  Inside a text, a number ends at the
first character that is no digit.  The levels are not needed for that, which is as well: with
an empty indentation they cannot be told. -/
set_option autoImplicit false
namespace ByteListing

theorem append_mark_inj {Item : Type} {mark : Item} {front firstRest : List Item}
    {secondFront secondRest : List Item} (notInFront : mark ∉ front)
    (notInSecond : mark ∉ secondFront)
    (same : front ++ mark :: firstRest = secondFront ++ mark :: secondRest) :
    front = secondFront ∧ firstRest = secondRest := by
  induction front generalizing secondFront with
  | nil =>
      cases secondFront with
      | nil => exact ⟨rfl, (List.cons.inj same).2⟩
      | cons item others =>
          obtain rfl := (List.cons.inj same).1
          exact absurd (List.mem_cons_self ..) notInSecond
  | cons item others inductionHypothesis =>
      cases secondFront with
      | nil =>
          obtain rfl := (List.cons.inj same).1
          exact absurd (List.mem_cons_self ..) notInFront
      | cons other secondOthers =>
          obtain ⟨rfl, restSame⟩ := List.cons.inj same
          obtain ⟨rfl, equal⟩ := inductionHypothesis
            (fun member => notInFront (List.mem_cons_of_mem _ member))
            (fun member => notInSecond (List.mem_cons_of_mem _ member)) restSame
          exact ⟨rfl, equal⟩

/-! ## Numbers -/

theorem toList_toString (value : Nat) : (toString value).toList = Nat.toDigits 10 value := by
  rw [Nat.toString_eq_repr, Nat.toList_repr]

theorem toString_inj {first second : Nat} (same : toString first = toString second) :
    first = second := by
  have digits := congrArg String.toList same
  rw [toList_toString, toList_toString] at digits
  rw [← Nat.ofDigitChars_ten_toDigits (n := first), digits, Nat.ofDigitChars_ten_toDigits]

theorem isDigit_of_mem_toString {value : Nat} {c : Char} (member : c ∈ (toString value).toList) :
    c.isDigit = true := by
  rw [toList_toString] at member
  exact Nat.isDigit_of_mem_toDigits (by decide) (by decide) member

theorem not_mem_toString (value : Nat) {mark : Char} (noDigit : mark.isDigit = false) :
    mark ∉ (toString value).toList := by
  intro member
  rw [isDigit_of_mem_toString member] at noDigit
  cases noDigit

theorem toString_append_inj {first second : Nat} {mark : Char} (noDigit : mark.isDigit = false)
    {firstRest secondRest : List Char}
    (same : (toString first).toList ++ mark :: firstRest =
      (toString second).toList ++ mark :: secondRest) :
    first = second ∧ firstRest = secondRest := by
  obtain ⟨digits, rest⟩ := append_mark_inj (not_mem_toString first noDigit)
    (not_mem_toString second noDigit) same
  exact ⟨toString_inj (String.toList_inj.mp digits), rest⟩

theorem toString_eq_cons (value : Nat) :
    ∃ digit digits, (toString value).toList = digit :: digits ∧ digit.isDigit = true := by
  cases digitsEq : (toString value).toList with
  | nil =>
      rw [toList_toString] at digitsEq
      exact absurd digitsEq Nat.toDigits_ne_nil
  | cons digit digits =>
      have member : digit ∈ (toString value).toList := by
        rw [digitsEq]
        exact List.mem_cons_self ..
      exact ⟨digit, digits, rfl, isDigit_of_mem_toString member⟩

theorem takeWhile_digits (value : Nat) {rest : List Char}
    (stops : ∀ c ∈ rest.head?, c.isDigit = false) :
    ((toString value).toList ++ rest).takeWhile Char.isDigit = (toString value).toList := by
  rw [List.takeWhile_append_of_pos fun c member => isDigit_of_mem_toString member]
  cases rest with
  | nil => exact List.append_nil _
  | cons c others =>
      have noDigit := stops c rfl
      rw [List.takeWhile_cons_of_neg (by rw [noDigit]; exact Bool.false_ne_true), List.append_nil]

/-- Numbers end at the first character that is no digit, whichever it is. -/
theorem digits_append_inj {first second : Nat} {rest others : List Char}
    (stops : ∀ c ∈ rest.head?, c.isDigit = false)
    (otherStops : ∀ c ∈ others.head?, c.isDigit = false)
    (same : (toString first).toList ++ rest = (toString second).toList ++ others) :
    first = second ∧ rest = others := by
  have digits := congrArg (List.takeWhile Char.isDigit) same
  rw [takeWhile_digits first stops, takeWhile_digits second otherStops] at digits
  rw [digits] at same
  exact ⟨toString_inj (String.toList_inj.mp digits), List.append_cancel_left same⟩

theorem toList_toString_int (value : Int) :
    (toString value).toList =
      if 0 ≤ value then (toString value.toNat).toList
      else '-' :: (toString (-value).toNat).toList := by
  rw [Int.toString_eq_repr, Int.repr_eq_if]
  split
  · rw [Nat.toString_eq_repr]
  · rw [String.toList_append, Nat.toString_eq_repr]
    rfl

theorem toString_int_begins (value : Int) : ∃ first behind,
    (toString value).toList = first :: behind ∧ (first.isDigit = true ∨ first = '-') := by
  rw [toList_toString_int]
  split
  · obtain ⟨digit, digits, valueEq, isDigit⟩ := toString_eq_cons value.toNat
    exact ⟨digit, digits, valueEq, .inl isDigit⟩
  · exact ⟨'-', _, rfl, .inr rfl⟩

theorem mem_toString_int {value : Int} {c : Char} (member : c ∈ (toString value).toList) :
    c.isDigit = true ∨ c = '-' := by
  rw [toList_toString_int] at member
  split at member
  · exact .inl (isDigit_of_mem_toString member)
  · rcases List.mem_cons.mp member with minus | inDigits
    · exact .inr minus
    · exact .inl (isDigit_of_mem_toString inDigits)

theorem toString_ne_minus (value : Nat) (rest : List Char) :
    (toString value).toList ≠ '-' :: rest := by
  obtain ⟨digit, digits, valueEq, isDigit⟩ := toString_eq_cons value
  rw [valueEq]
  rintro ⟨⟩
  cases isDigit

theorem toString_int_inj {first second : Int} (same : toString first = toString second) :
    first = second := by
  have listed := congrArg String.toList same
  rw [toList_toString_int, toList_toString_int] at listed
  by_cases positive : 0 ≤ first
  · rw [if_pos positive] at listed
    by_cases otherPositive : 0 ≤ second
    · rw [if_pos otherPositive] at listed
      have numbers := toString_inj (String.toList_inj.mp listed)
      omega
    · rw [if_neg otherPositive] at listed
      exact absurd listed (toString_ne_minus _ _)
  · rw [if_neg positive] at listed
    by_cases otherPositive : 0 ≤ second
    · rw [if_pos otherPositive] at listed
      exact absurd listed.symm (toString_ne_minus _ _)
    · rw [if_neg otherPositive] at listed
      have numbers := toString_inj (String.toList_inj.mp (List.cons.inj listed).2)
      omega

/-! ## Indentation -/

namespace Listing

def IsBlank (indent : String) : Prop := ∀ c ∈ indent.toList, c = ' '

/-- A text that can be told from the blanks before it and the line feed behind it. -/
structure IsText (text : String) : Prop where
  noFeed : '\n' ∉ text.toList
  noBlank : text.toList.head? ≠ some ' '

def opening (lines : List Line) : Option Char := lines.head?.bind (·.text.toList.head?)

theorem no_feed_append {first second : String} (noFeed : '\n' ∉ first.toList)
    (noSecondFeed : '\n' ∉ second.toList) : '\n' ∉ (first ++ second).toList := by
  rw [String.toList_append, List.mem_append]
  exact not_or.mpr ⟨noFeed, noSecondFeed⟩

theorem blank_repeated {indent : String} (blank : IsBlank indent) (count : Nat) :
    IsBlank (repeated count indent) := by
  induction count with
  | zero =>
      intro c member
      cases member
  | succ count inductionHypothesis =>
      intro c member
      rw [repeated, String.toList_append, List.mem_append] at member
      exact member.elim (blank c) (inductionHypothesis c)

theorem isText_head? {line : Line} (isText : IsText line.text) (rest : List Line) :
    ∀ first ∈ (line :: rest).head?, IsText first.text := by
  rintro first ⟨⟩
  exact isText

theorem toList_print_cons (indent : String) (line : Line) (rest : List Line) :
    (print indent (line :: rest)).toList =
      ((repeated line.level indent).toList ++ line.text.toList) ++
        '\n' :: (print indent rest).toList := by
  rw [print, List.map_cons, String.join_cons, printLine]
  simp only [String.toList_append, List.append_assoc]
  rfl

theorem print_cons_ne_nil (indent : String) (line : Line) (rest : List Line) :
    print indent (line :: rest) ≠ print indent [] := by
  intro same
  have listed := congrArg String.toList same
  rw [toList_print_cons] at listed
  exact absurd (List.append_eq_nil_iff.mp listed).2 nofun

theorem print_append (indent : String) (front rest : List Line) :
    print indent (front ++ rest) = print indent front ++ print indent rest := by
  rw [print, List.map_append, String.join_append]
  rfl

theorem print_append_inj {indent : String} {front rest others : List Line}
    (same : print indent (front ++ rest) = print indent (front ++ others)) :
    print indent rest = print indent others := by
  have listed := congrArg String.toList same
  rw [print_append, print_append, String.toList_append, String.toList_append] at listed
  exact String.toList_inj.mp (List.append_cancel_left listed)

theorem dropWhile_blank {blanks text : List Char} (blank : ∀ c ∈ blanks, c = ' ')
    (noBlank : text.head? ≠ some ' ') : (blanks ++ text).dropWhile (· == ' ') = text := by
  rw [List.dropWhile_append_of_pos (fun c member => beq_iff_eq.mpr (blank c member))]
  cases text with
  | nil => rfl
  | cons c rest =>
      have visible : c ≠ ' ' := fun equal => noBlank (congrArg some equal)
      rw [List.dropWhile_cons_of_neg (by simpa using visible)]

section Indented

variable {indent : String} (blank : IsBlank indent)
include blank

theorem no_feed_indented {line : Line} (isText : IsText line.text) :
    '\n' ∉ (repeated line.level indent).toList ++ line.text.toList := by
  rw [List.mem_append]
  rintro (member | member)
  · cases blank_repeated blank _ _ member
  · exact isText.noFeed member

theorem print_cons_inj {line other : Line} {rest others : List Line} (isText : IsText line.text)
    (otherIsText : IsText other.text)
    (same : print indent (line :: rest) = print indent (other :: others)) :
    line.text = other.text ∧ print indent rest = print indent others := by
  have listed := congrArg String.toList same
  rw [toList_print_cons, toList_print_cons] at listed
  obtain ⟨indented, following⟩ := append_mark_inj (no_feed_indented blank isText)
    (no_feed_indented blank otherIsText) listed
  have texts := congrArg (List.dropWhile (· == ' ')) indented
  rw [dropWhile_blank (blank_repeated blank _) isText.noBlank,
    dropWhile_blank (blank_repeated blank _) otherIsText.noBlank] at texts
  exact ⟨String.toList_inj.mp texts, String.toList_inj.mp following⟩

theorem opening_eq_of_print_eq {first second : List Line}
    (firstIsText : ∀ line ∈ first.head?, IsText line.text)
    (secondIsText : ∀ line ∈ second.head?, IsText line.text)
    (same : print indent first = print indent second) : opening first = opening second := by
  cases first with
  | nil =>
      cases second with
      | nil => rfl
      | cons line rest => exact absurd same.symm (print_cons_ne_nil indent line rest)
  | cons line rest =>
      cases second with
      | nil => exact absurd same (print_cons_ne_nil indent line rest)
      | cons other others =>
          obtain ⟨texts, -⟩ := print_cons_inj blank (firstIsText line rfl)
            (secondIsText other rfl) same
          simp only [opening, List.head?_cons, Option.bind_some, texts]

end Indented

end Listing

end ByteListing
