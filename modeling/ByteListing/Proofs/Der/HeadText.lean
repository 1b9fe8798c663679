import ByteListing.Der.Listing
import ByteListing.Proofs.Text.Lines

/-! # What stands in front of a body

Tags have different names: a universal type that is named by a word is in its usual form, and
every other tag gives its class, its number and its form between brackets.  No name ends in the
word that tells an open length, so that the head of an element gives its tag and whether its
length was left open. -/
set_option autoImplicit false
namespace ByteListing.Der

namespace Tag

/-! ## Names -/

theorem universalName?_eq_none {number : Nat} (large : 31 ≤ number) :
    universalName? number = none := by
  rw [universalName?.eq_def]
  split
  all_goals first
    | rfl
    | omega

theorem lt_of_universalName? {number : Nat} {name : String}
    (named : universalName? number = some name) : number < 31 := by
  refine Nat.lt_of_not_le fun large => ?_
  rw [universalName?_eq_none large] at named
  cases named

theorem universalName?_inj {first second : Nat} {name : String}
    (named : universalName? first = some name) (otherNamed : universalName? second = some name) :
    first = second := by
  have all : ∀ first < 31, ∀ second < 31, universalName? first = universalName? second →
      (universalName? first).isSome → first = second := by decide +kernel
  exact all first (lt_of_universalName? named) second (lt_of_universalName? otherNamed)
    (named.trans otherNamed.symm) (by rw [named]; rfl)

def inWord (c : Char) : Bool := c.isAlphanum || c == '_'

theorem inWord_of_mem_name {number : Nat} {name : String}
    (named : universalName? number = some name) :
    name ≠ "" ∧ ∀ c ∈ name.toList, inWord c = true := by
  have all : ∀ number < 31, ∀ name ∈ universalName? number,
      name ≠ "" ∧ name.toList.all inWord = true := by decide +kernel
  obtain ⟨occupied, withinWord⟩ := all number (lt_of_universalName? named) name named
  exact ⟨occupied, List.all_eq_true.mp withinWord⟩

/-! ## Brackets -/

theorem toList_bracketed (tag : Tag) :
    tag.bracketed.toList = '[' :: ((classPart tag.tagClass).toList ++
      ((toString tag.number).toList ++ (tag.formPart.toList ++ [']']))) := by
  simp only [bracketed, String.toList_append, List.append_assoc]
  rfl

/-- A class stands in front of a number, and no class has the beginning of another. -/
theorem classPart_append_inj {first second : TagClass} {number other : Nat}
    {rest others : List Char}
    (same : (classPart first).toList ++ ((toString number).toList ++ rest) =
      (classPart second).toList ++ ((toString other).toList ++ others)) : first = second := by
  obtain ⟨digit, digits, numberEq, isDigit⟩ := toString_eq_cons number
  obtain ⟨otherDigit, otherDigits, otherEq, otherIsDigit⟩ := toString_eq_cons other
  rw [numberEq, otherEq] at same
  cases first <;> cases second
  all_goals first
    | rfl
    | cases (List.cons.inj same).1; cases isDigit
    | cases (List.cons.inj same).1; cases otherIsDigit
    | cases (List.cons.inj same).1

theorem eq_of_isUnusual_eq {first second : Tag} (classes : first.tagClass = second.tagClass)
    (numbers : first.number = second.number) (forms : first.isUnusual = second.isUnusual) :
    first = second := by
  have usual : first.usuallyConstructed = second.usuallyConstructed := by
    rw [usuallyConstructed, usuallyConstructed, classes, numbers]
  rw [isUnusual, isUnusual, usual, Bool.bne_left_inj] at forms
  obtain ⟨_, _, _⟩ := first
  simp only at classes numbers forms
  rw [classes, numbers, forms]

theorem isUnusual_iff_formPart (tag : Tag) : tag.isUnusual = true ↔ tag.formPart ≠ "" := by
  rw [formPart]
  split
  · rename_i unusual
    refine iff_of_true unusual ?_
    split <;> decide
  · rename_i usual
    exact iff_of_false usual (fun other => other rfl)

theorem formPart_cases (tag : Tag) :
    tag.formPart = " CONSTRUCTED" ∨ tag.formPart = " PRIMITIVE" ∨ tag.formPart = "" := by
  rw [formPart]
  split
  · split
    · exact .inl rfl
    · exact .inr (.inl rfl)
  · exact .inr (.inr rfl)

theorem stops_form (tag : Tag) :
    ∀ c ∈ (tag.formPart.toList ++ [']']).head?, c.isDigit = false := by
  rcases tag.formPart_cases with form | form | form
  all_goals
    rw [form]
    rintro c ⟨⟩
    rfl

theorem bracketed_inj {first second : Tag} (same : first.bracketed = second.bracketed) :
    first = second := by
  have listed := congrArg String.toList same
  rw [toList_bracketed, toList_bracketed, List.cons.injEq] at listed
  have classes := classPart_append_inj listed.2
  rw [classes] at listed
  obtain ⟨numbers, forms⟩ := digits_append_inj (stops_form first) (stops_form second)
    (List.append_cancel_left listed.2)
  have parts : first.formPart = second.formPart :=
    String.toList_inj.mp (List.append_cancel_right forms)
  refine eq_of_isUnusual_eq classes numbers (Bool.eq_iff_iff.mpr ?_)
  rw [isUnusual_iff_formPart, isUnusual_iff_formPart, parts]

/-! ## Heads -/

theorem displayName_cases (tag : Tag) :
    (tag.tagClass = .universal ∧ tag.isUnusual = false ∧
      universalName? tag.number = some tag.displayName) ∨ tag.displayName = tag.bracketed := by
  rw [displayName]
  split
  · rename_i usual
    cases named : universalName? tag.number with
    | none => exact .inr rfl
    | some name => exact .inl ⟨usual.1, usual.2, rfl⟩
  · exact .inr rfl

theorem name_ne_bracketed {number : Nat} {name : String}
    (named : universalName? number = some name) (tag : Tag) : name ≠ tag.bracketed := by
  rintro rfl
  have withinWord := (inWord_of_mem_name named).2 '['
  rw [toList_bracketed] at withinWord
  cases withinWord (List.mem_cons_self ..)

theorem displayName_inj {first second : Tag} (same : first.displayName = second.displayName) :
    first = second := by
  rcases displayName_cases first with ⟨universal, usual, named⟩ | bracketed
  · rcases displayName_cases second with ⟨otherUniversal, otherUsual, otherNamed⟩ | bracketed
    · rw [← same] at otherNamed
      exact eq_of_isUnusual_eq (universal.trans otherUniversal.symm)
        (universalName?_inj named otherNamed) (usual.trans otherUsual.symm)
    · exact absurd (same.trans bracketed) (name_ne_bracketed named second)
  · rcases displayName_cases second with ⟨-, -, otherNamed⟩ | otherBracketed
    · exact absurd (same.symm.trans bracketed) (name_ne_bracketed otherNamed first)
    · exact bracketed_inj (bracketed.symm.trans (same.trans otherBracketed))

theorem getLast?_bracketed (tag : Tag) : tag.bracketed.toList.getLast? = some ']' := by
  rw [bracketed, String.toList_append, List.getLast?_append]
  rfl

theorem displayName_ne_indefinite (first second : Tag) :
    first.displayName ++ " indefinite" ≠ second.displayName := by
  intro same
  rcases displayName_cases second with ⟨-, -, named⟩ | bracketed
  · have blank : ' ' ∈ second.displayName.toList := by
      rw [← same, String.toList_append]
      exact List.mem_append_right _ (List.mem_cons_self ..)
    cases (inWord_of_mem_name named).2 ' ' blank
  · have last := getLast?_bracketed second
    rw [← bracketed, ← same, String.toList_append, List.getLast?_append] at last
    cases last

def inHead (c : Char) : Bool := inWord c || c == ' ' || c == '[' || c == ']'

theorem inHead_of_inWord {c : Char} (withinWord : inWord c = true) : inHead c = true := by
  rw [inHead, withinWord]
  rfl

theorem inHead_of_isDigit {c : Char} (isDigit : c.isDigit = true) : inHead c = true := by
  refine inHead_of_inWord ?_
  rw [inWord, Char.isAlphanum, isDigit, Bool.or_true]
  rfl

theorem inHead_of_mem_classPart {tagClass : TagClass} :
    ∀ c ∈ (classPart tagClass).toList, inHead c = true := by
  have all : (classPart tagClass).toList.all inHead = true := by
    cases tagClass <;> decide +kernel
  exact List.all_eq_true.mp all

theorem inHead_of_mem_formPart {tag : Tag} : ∀ c ∈ tag.formPart.toList, inHead c = true := by
  have all : tag.formPart.toList.all inHead = true := by
    rcases tag.formPart_cases with form | form | form <;> rw [form] <;> decide +kernel
  exact List.all_eq_true.mp all

theorem inHead_of_mem_displayName {tag : Tag} {c : Char} (member : c ∈ tag.displayName.toList) :
    inHead c = true := by
  rcases displayName_cases tag with ⟨-, -, named⟩ | bracketed
  · exact inHead_of_inWord ((inWord_of_mem_name named).2 c member)
  · rw [bracketed, toList_bracketed, List.mem_cons] at member
    simp only [List.mem_append, List.mem_singleton] at member
    rcases member with rfl | inClass | inNumber | inForm | rfl
    · rfl
    · exact inHead_of_mem_classPart c inClass
    · exact inHead_of_isDigit (isDigit_of_mem_toString inNumber)
    · exact inHead_of_mem_formPart c inForm
    · rfl

theorem displayName_begins (tag : Tag) : ∃ first behind,
    tag.displayName.toList = first :: behind ∧ (inWord first = true ∨ first = '[') := by
  rcases displayName_cases tag with ⟨-, -, named⟩ | bracketed
  · obtain ⟨occupied, withinWord⟩ := inWord_of_mem_name named
    cases shown : tag.displayName.toList with
    | nil => exact absurd (String.toList_eq_nil_iff.mp shown) occupied
    | cons first behind =>
        refine ⟨first, behind, rfl, .inl (withinWord first ?_)⟩
        rw [shown]
        exact List.mem_cons_self ..
  · rw [bracketed, toList_bracketed]
    exact ⟨_, _, rfl, .inr rfl⟩

end Tag

namespace Element

theorem head_of_open {element : Element} (isOpen : element.indefinite = true) :
    element.head = element.tag.displayName ++ " indefinite" := by
  rw [head, if_pos isOpen]

theorem head_of_definite {element : Element} (definite : element.indefinite = false) :
    element.head = element.tag.displayName := by
  rw [head, definite, if_neg Bool.false_ne_true, String.append_empty]

theorem head_inj {first second : Element} (same : first.head = second.head) :
    first.tag = second.tag ∧ first.indefinite = second.indefinite := by
  cases isOpen : first.indefinite with
  | false =>
      rw [head_of_definite isOpen] at same
      cases otherOpen : second.indefinite with
      | false =>
          rw [head_of_definite otherOpen] at same
          exact ⟨Tag.displayName_inj same, rfl⟩
      | true =>
          rw [head_of_open otherOpen] at same
          exact absurd same.symm (Tag.displayName_ne_indefinite _ _)
  | true =>
      rw [head_of_open isOpen] at same
      cases otherOpen : second.indefinite with
      | false =>
          rw [head_of_definite otherOpen] at same
          exact absurd same (Tag.displayName_ne_indefinite _ _)
      | true =>
          rw [head_of_open otherOpen] at same
          exact ⟨Tag.displayName_inj ((String.append_left_inj _).mp same), rfl⟩

theorem inHead_of_mem_head {element : Element} {c : Char} (member : c ∈ element.head.toList) :
    Tag.inHead c = true := by
  rw [head, String.toList_append, List.mem_append] at member
  rcases member with inName | withinWord
  · exact Tag.inHead_of_mem_displayName inName
  · have all : (if element.indefinite then " indefinite" else "").toList.all Tag.inHead = true := by
      split <;> decide +kernel
    exact List.all_eq_true.mp all c withinWord

end Element

end ByteListing.Der
