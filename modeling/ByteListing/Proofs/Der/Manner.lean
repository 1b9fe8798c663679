import ByteListing.Der.Listing
import ByteListing.Proofs.Der.DottedText
import ByteListing.Proofs.Text.Quoted
import ByteListing.Proofs.Text.Utf16
import ByteListing.Proofs.Text.Utf8Decoding

/-! # The manners of showing a body

The tag of an element settles the `Manner` in which its body is shown: which bodies open a block,
and the text that the others have.  In one manner a text can come from one body only, except for
numbers and arcs, which can be padded: short integers give their value, and dotted text gives the
arcs (`Manner.sameText_of_text_eq`). -/
set_option autoImplicit false
namespace ByteListing.Der

inductive Manner where
  | constructed
  | wrapped
  | truth
  | decimal
  | bits
  | digits
  | identifier (relative : Bool)
  | utf16
  | utf32
  | quoted
  | literal

namespace Manner

def ofNumber : Nat → Manner
  | 1 => truth
  | 2 | 10 => decimal
  | 3 => bits
  | 4 => wrapped
  | 5 => digits
  | 6 => identifier false
  | 13 => identifier true
  | 28 => utf32
  | 30 => utf16
  | number => if number = 7 ∨ number = 12 ∨ (18 ≤ number ∧ number ≤ 27) then quoted else literal

def ofTag (tag : Tag) : Manner :=
  if tag.constructed then constructed
  else if tag.tagClass = .universal then ofNumber tag.number
  else wrapped

/-- The elements that a body is shown as, and an octet in front of them. -/
def block? (mayNest : Bool) : Manner → Bytes → Option (Option UInt8 × Bytes)
  | constructed, data => if mayNest then some (none, data) else none
  | wrapped, data => if mayNest ∧ Element.isSequence data then some (none, data) else none
  | bits, 0 :: data => if mayNest ∧ Element.isSequence data then some (some 0, data) else none
  | _, _ => none

def prefixedText (letter : String) (data : Bytes) : Option (List Char) → String
  | some text => letter ++ Quoted.ofText text
  | none => Hex.literal data

def text : Manner → Bytes → String
  | truth, [0x00] => "FALSE"
  | truth, [0xFF] => "TRUE"
  | decimal, data => if data.length ≤ 8 then toString (Body.integer data) else Body.literal data
  | bits, [unused] => Hex.literal [unused]
  | bits, unused :: data => Hex.literal [unused] ++ " " ++ Hex.literal data
  | identifier relative, data =>
      (ObjectIdentifier.decode? relative data).getD (Hex.literal data)
  | utf16, data => prefixedText "u" data (Utf16.decodeBytes? data)
  | utf32, data => prefixedText "U" data (Utf32.decodeBytes? data)
  | quoted, data => Quoted.ofBytes data
  | truth, data | wrapped, data | literal, data => Body.literal data
  | constructed, data | digits, data | bits, data => Hex.literal data

def comment (layout : Layout) : Manner → Bytes → Option String
  | identifier false, data =>
      if layout.identifierNames then
        (ObjectIdentifier.decode? false data).bind ObjectIdentifier.name?
      else none
  | _, _ => none

def body (layout : Layout) (mayNest : Bool) (manner : Manner) (data : Bytes) : Body :=
  match manner.block? mayNest data with
  | some (lead, inner) => .nested (lead.map fun octet => Hex.literal [octet]) inner
  | none => .inline (manner.text data) (manner.comment layout data)

end Manner

theorem Body.identifier_eq (layout : Layout) (mayNest : Bool) (relative : Bool) (data : Bytes) :
    identifier relative (!relative && layout.identifierNames) data =
      (Manner.identifier relative).body layout mayNest data := by
  rw [identifier, Manner.body]
  cases decoded : ObjectIdentifier.decode? relative data with
  | none => cases relative <;> simp [Manner.block?, Manner.text, Manner.comment, decoded]
  | some dotted => cases relative <;> simp [Manner.block?, Manner.text, Manner.comment, decoded]

theorem Body.textOr_eq (letter : String) (data : Bytes) (found : Option (List Char)) :
    textOr letter data found = .inline (Manner.prefixedText letter data found) none := by
  cases found <;> rfl

theorem Body.bitString_eq (layout : Layout) (mayNest : Bool) (unused : UInt8) (data : Bytes) :
    bitString mayNest unused data = Manner.bits.body layout mayNest (unused :: data) := by
  rw [bitString]
  split
  · rename_i nests
    obtain ⟨rfl, nests⟩ := nests
    simp [Manner.body, Manner.block?, nests]
  · rename_i flat
    have noBlock : Manner.bits.block? mayNest (unused :: data) = none := by
      by_cases zero : unused = 0
      · subst zero
        exact if_neg fun nests => flat ⟨rfl, nests⟩
      · simp [Manner.block?, zero]
    cases data with
    | nil => simp [Manner.body, noBlock, Manner.text, Manner.comment]
    | cons octet others => simp [Manner.body, noBlock, Manner.text, Manner.comment]

theorem Body.truth_eq (layout : Layout) (mayNest : Bool) (data : Bytes) :
    ofUniversal layout mayNest 1 data = Manner.truth.body layout mayNest data := by
  by_cases no : data = [0x00]
  · subst no
    rfl
  · by_cases yes : data = [0xFF]
    · subst yes
      rfl
    · simp [ofUniversal, Manner.body, Manner.block?, Manner.text, Manner.comment, no, yes]

theorem Body.ofUniversal_eq (layout : Layout) (mayNest : Bool) (number : Nat) {data : Bytes}
    (occupied : data ≠ []) :
    ofUniversal layout mayNest number data =
      (Manner.ofNumber number).body layout mayNest data := by
  rw [Manner.ofNumber.eq_def]
  split
  · exact truth_eq layout mayNest data
  · by_cases short : data.length ≤ 8 <;>
      simp [ofUniversal, Manner.body, Manner.block?, Manner.text, Manner.comment, short]
  · by_cases short : data.length ≤ 8 <;>
      simp [ofUniversal, Manner.body, Manner.block?, Manner.text, Manner.comment, short]
  · cases data with
    | nil => exact absurd rfl occupied
    | cons unused others => exact bitString_eq layout mayNest unused others
  · by_cases nests : mayNest = true ∧ Element.isSequence data = true <;>
      simp [ofUniversal, Manner.body, Manner.block?, Manner.text, Manner.comment, nests]
  · rfl
  · exact identifier_eq layout mayNest false data
  · exact identifier_eq layout mayNest true data
  · exact textOr_eq "U" data _
  · exact textOr_eq "u" data _
  · rw [ofUniversal.eq_def]
    split
    all_goals try contradiction
    rw [if_neg, if_neg]
    · split <;> rfl
    · rintro ⟨four, -⟩
      contradiction
    · rintro ⟨two | ten, -⟩ <;> contradiction

theorem Body.ofElement_eq (layout : Layout) (mayNest : Bool) {element : Element}
    (occupied : element.body ≠ []) :
    ofElement layout mayNest element =
      (Manner.ofTag element.tag).body layout mayNest element.body := by
  have notEmpty : element.body.isEmpty = false := List.isEmpty_eq_false_iff.mpr occupied
  rw [ofElement, Manner.ofTag]
  split
  · cases mayNest <;> simp [ofConstructed, notEmpty, Manner.body, Manner.block?, Manner.text,
      Manner.comment]
  · rw [ofPrimitive, notEmpty, if_neg Bool.false_ne_true]
    split
    · exact ofUniversal_eq layout mayNest _ occupied
    · by_cases nests : mayNest = true ∧ Element.isSequence element.body = true <;>
        simp [Manner.body, Manner.block?, Manner.text, Manner.comment, nests]

theorem Body.ofElement_empty (layout : Layout) (mayNest : Bool) {element : Element}
    (empty : element.body = []) : ofElement layout mayNest element = .empty := by
  rw [ofElement, empty]
  split <;> rfl

/-! ## Texts on one line -/

theorem Body.literal_ne_of_begins {text : String} {first : Char} {behind : List Char}
    (begins : text.toList = first :: behind) (noQuote : first ≠ '\"') (noTick : first ≠ '`')
    (data : Bytes) : literal data ≠ text := by
  rintro rfl
  rw [literal] at begins
  split at begins
  · rw [Quoted.toList_ofBytes] at begins
    exact noQuote (List.cons.inj begins).1.symm
  · rw [Hex.toList_literal] at begins
    exact noTick (List.cons.inj begins).1.symm

theorem Body.literal_inj {first second : Bytes} (same : literal first = literal second) :
    first = second := by
  rw [literal, literal] at same
  split at same
  · split at same
    · exact Quoted.ofBytes_inj same
    · exact absurd same (Quoted.ofBytes_ne_literal _ _)
  · split at same
    · exact absurd same.symm (Quoted.ofBytes_ne_literal _ _)
    · exact Hex.literal_inj same

theorem hexLiteral_ne_of_begins {text : String} {first : Char} {behind : List Char}
    (begins : text.toList = first :: behind) (noTick : first ≠ '`') (data : Bytes) :
    Hex.literal data ≠ text := by
  rintro rfl
  rw [Hex.toList_literal] at begins
  exact noTick (List.cons.inj begins).1.symm

namespace Manner

/-- Bodies that have the same text in a manner: equal ones, and encodings of one integer or of
the same arcs. -/
inductive SameText : Manner → Bytes → Bytes → Prop
  | same {manner : Manner} {data : Bytes} : SameText manner data data
  | integer {first second : Bytes} : first.length ≤ 8 → second.length ≤ 8 →
      Body.integer first = Body.integer second → SameText decimal first second
  | arcs {relative : Bool} {first second : Bytes} {numbers others : List Nat} :
      ObjectIdentifier.numbers? first = some numbers → numbers ≠ [] →
      ObjectIdentifier.numbers? second = some others → others ≠ [] →
      ObjectIdentifier.arcs relative numbers = ObjectIdentifier.arcs relative others →
      SameText (identifier relative) first second

/-- A manner has texts of its own, told by `Told`, and shows what has none of them plainly.  If
nothing is plainly shown as one of those texts, equal texts are of one kind. -/
theorem told_or_plain {text plain : Bytes → String} {Told : Bytes → String → Prop}
    (kinds : ∀ data, Told data (text data) ∨ text data = plain data)
    (apart : ∀ {data shown}, Told data shown → ∀ other, plain other ≠ shown)
    {first second : Bytes} (same : text first = text second) :
    (Told first (text first) ∧ Told second (text first)) ∨ plain first = plain second := by
  rcases kinds first with told | shown
  · rcases kinds second with otherTold | otherShown
    · rw [← same] at otherTold
      exact .inl ⟨told, otherTold⟩
    · exact absurd (otherShown.symm.trans same.symm) (apart told second)
  · rcases kinds second with otherTold | otherShown
    · exact absurd (shown.symm.trans same) (apart otherTold first)
    · exact .inr (shown.symm.trans (same.trans otherShown))

def TruthTold (data : Bytes) (word : String) : Prop :=
  (data = [0x00] ∧ word = "FALSE") ∨ (data = [0xFF] ∧ word = "TRUE")

theorem truth_kinds (data : Bytes) :
    TruthTold data (truth.text data) ∨ truth.text data = Body.literal data := by
  by_cases no : data = [0x00]
  · subst no
    exact .inl (.inl ⟨rfl, rfl⟩)
  · by_cases yes : data = [0xFF]
    · subst yes
      exact .inl (.inr ⟨rfl, rfl⟩)
    · exact .inr (by simp [text])

theorem literal_ne_truth {data : Bytes} {word : String} (told : TruthTold data word)
    (other : Bytes) : Body.literal other ≠ word := by
  rcases told with ⟨-, rfl⟩ | ⟨-, rfl⟩
  · have begins : "FALSE".toList = 'F' :: "ALSE".toList := rfl
    exact Body.literal_ne_of_begins begins (by decide) (by decide) other
  · have begins : "TRUE".toList = 'T' :: "RUE".toList := rfl
    exact Body.literal_ne_of_begins begins (by decide) (by decide) other

theorem truth_inj {first second : Bytes} (same : truth.text first = truth.text second) :
    first = second := by
  rcases told_or_plain truth_kinds literal_ne_truth same with ⟨told, otherTold⟩ | plain
  · rcases told with ⟨rfl, no⟩ | ⟨rfl, yes⟩
    · rcases otherTold with ⟨rfl, -⟩ | ⟨-, yes⟩
      · rfl
      · exact absurd (no.symm.trans yes) (by decide)
    · rcases otherTold with ⟨-, no⟩ | ⟨rfl, -⟩
      · exact absurd (yes.symm.trans no) (by decide)
      · rfl
  · exact Body.literal_inj plain

theorem literal_ne_decimal (data : Bytes) (value : Int) : Body.literal data ≠ toString value := by
  obtain ⟨first, behind, begins, sign⟩ := toString_int_begins value
  refine Body.literal_ne_of_begins begins ?_ ?_ data
  · rintro rfl
    rcases sign with isDigit | minus
    · cases isDigit
    · cases minus
  · rintro rfl
    rcases sign with isDigit | minus
    · cases isDigit
    · cases minus

theorem decimal_inj {first second : Bytes} (same : decimal.text first = decimal.text second) :
    SameText decimal first second := by
  have kinds (data : Bytes) :
      (data.length ≤ 8 ∧ toString (Body.integer data) = decimal.text data) ∨
        decimal.text data = Body.literal data := by
    rw [text]
    split
    · rename_i short
      exact .inl ⟨short, rfl⟩
    · exact .inr rfl
  have apart {data : Bytes} {shown : String}
      (told : data.length ≤ 8 ∧ toString (Body.integer data) = shown) (other : Bytes) :
      Body.literal other ≠ shown := by
    rw [← told.2]
    exact literal_ne_decimal other _
  rcases told_or_plain kinds apart same with ⟨⟨short, shown⟩, otherShort, otherShown⟩ | plain
  · exact .integer short otherShort (toString_int_inj (shown.trans otherShown.symm))
  · rw [Body.literal_inj plain]
    exact .same

theorem bits_text (unused : UInt8) (data : Bytes) :
    (bits.text (unused :: data)).toList = (Hex.literal [unused]).toList ++
      (if data = [] then [] else ' ' :: (Hex.literal data).toList) := by
  cases data with
  | nil => simp [text]
  | cons octet others => simp [text]

theorem bits_inj {first second : Bytes} (occupied : first ≠ []) (otherOccupied : second ≠ [])
    (same : bits.text first = bits.text second) : first = second := by
  obtain ⟨unused, data, rfl⟩ := List.exists_cons_of_ne_nil occupied
  obtain ⟨other, others, rfl⟩ := List.exists_cons_of_ne_nil otherOccupied
  have listed := congrArg String.toList same
  rw [bits_text, bits_text] at listed
  -- An octet takes two digits, so that what stands behind it begins at the same place.
  have sizes : (Hex.literal [unused]).toList.length = (Hex.literal [other]).toList.length := by
    rw [Hex.toList_literal, Hex.toList_literal]
    rfl
  obtain ⟨fronts, rests⟩ := List.append_inj listed sizes
  obtain rfl := List.cons.inj (Hex.literal_inj (String.toList_inj.mp fronts)) |>.1
  split at rests
  · rename_i empty
    split at rests
    · rename_i otherEmpty
      rw [empty, otherEmpty]
    · cases rests
  · split at rests
    · cases rests
    · rw [Hex.literal_inj (String.toList_inj.mp (List.cons.inj rests).2)]

theorem identifier_inj {relative : Bool} {first second : Bytes}
    (same : (identifier relative).text first = (identifier relative).text second) :
    SameText (identifier relative) first second := by
  have kinds (data : Bytes) :
      ObjectIdentifier.decode? relative data = some ((identifier relative).text data) ∨
        (identifier relative).text data = Hex.literal data := by
    rw [text]
    cases ObjectIdentifier.decode? relative data with
    | none => exact .inr rfl
    | some dotted => exact .inl rfl
  have apart {data : Bytes} {dotted : String}
      (decoded : ObjectIdentifier.decode? relative data = some dotted) (other : Bytes) :
      Hex.literal other ≠ dotted := by
    obtain ⟨digit, behind, begins, isDigit⟩ := ObjectIdentifier.decode?_begins decoded
    refine hexLiteral_ne_of_begins begins ?_ other
    rintro rfl
    cases isDigit
  rcases told_or_plain kinds apart same with ⟨decoded, otherDecoded⟩ | plain
  · obtain ⟨numbers, found, someNumbers, shown⟩ :=
      ObjectIdentifier.decode?_eq_some_iff.mp decoded
    obtain ⟨others, otherFound, someOthers, otherShown⟩ :=
      ObjectIdentifier.decode?_eq_some_iff.mp otherDecoded
    exact .arcs found someNumbers otherFound someOthers
      (ObjectIdentifier.dotted_inj (shown.trans otherShown.symm))
  · rw [Hex.literal_inj plain]
    exact .same

theorem prefixedText_inj {letter : Char} (noTick : letter ≠ '`')
    {decode? : Bytes → Option (List Char)}
    (decodeInj : ∀ {first second : Bytes} {text : List Char}, decode? first = some text →
      decode? second = some text → first = second)
    {first second : Bytes}
    (same : prefixedText (String.singleton letter) first (decode? first) =
      prefixedText (String.singleton letter) second (decode? second)) : first = second := by
  have kinds (data : Bytes) :
      (∃ text, decode? data = some text ∧ String.singleton letter ++ Quoted.ofText text =
          prefixedText (String.singleton letter) data (decode? data)) ∨
        prefixedText (String.singleton letter) data (decode? data) = Hex.literal data := by
    cases decode? data with
    | none => exact .inr rfl
    | some text => exact .inl ⟨text, rfl, rfl⟩
  have apart {data : Bytes} {shown : String}
      (told : ∃ text, decode? data = some text ∧
        String.singleton letter ++ Quoted.ofText text = shown) (other : Bytes) :
      Hex.literal other ≠ shown := by
    obtain ⟨text, -, rfl⟩ := told
    have begins : (String.singleton letter ++ Quoted.ofText text).toList =
        letter :: (Quoted.ofText text).toList := by
      rw [String.toList_append, String.toList_singleton]
      rfl
    exact hexLiteral_ne_of_begins begins noTick other
  rcases told_or_plain kinds apart same with
    ⟨⟨text, decoded, shown⟩, other, otherDecoded, otherShown⟩ | plain
  · have texts := Utf8.encode_inj (Quoted.encode_eq_of_ofText_eq
      ((String.append_right_inj _).mp (shown.trans otherShown.symm)))
    rw [← texts] at otherDecoded
    exact decodeInj decoded otherDecoded
  · exact Hex.literal_inj plain

theorem sameText_of_text_eq {manner : Manner} {first second : Bytes} (occupied : first ≠ [])
    (otherOccupied : second ≠ []) (same : manner.text first = manner.text second) :
    SameText manner first second := by
  cases manner with
  | constructed => exact Hex.literal_inj same ▸ .same
  | wrapped => exact Body.literal_inj same ▸ .same
  | truth => exact truth_inj same ▸ .same
  | decimal => exact decimal_inj same
  | bits => exact bits_inj occupied otherOccupied same ▸ .same
  | digits => exact Hex.literal_inj same ▸ .same
  | identifier relative => exact identifier_inj same
  | utf16 =>
      have noTick : 'u' ≠ '`' := by decide
      exact prefixedText_inj noTick Utf16.decodeBytes?_inj same ▸ .same
  | utf32 =>
      have noTick : 'U' ≠ '`' := by decide
      exact prefixedText_inj noTick Utf32.decodeBytes?_inj same ▸ .same
  | quoted => exact Quoted.ofBytes_inj same ▸ .same
  | literal => exact Body.literal_inj same ▸ .same

/-! ## Tags -/

theorem ofNumber_eq_decimal {number : Nat} (shown : ofNumber number = decimal) :
    number = 2 ∨ number = 10 := by
  rw [ofNumber.eq_def] at shown
  split at shown
  case h_2 => exact .inl rfl
  case h_3 => exact .inr rfl
  case h_11 => split at shown <;> cases shown
  all_goals cases shown

theorem ofNumber_eq_identifier {number : Nat} {relative : Bool}
    (shown : ofNumber number = identifier relative) :
    (relative = false ∧ number = 6) ∨ (relative = true ∧ number = 13) := by
  rw [ofNumber.eq_def] at shown
  split at shown
  case h_7 =>
    cases shown
    exact .inl ⟨rfl, rfl⟩
  case h_8 =>
    cases shown
    exact .inr ⟨rfl, rfl⟩
  case h_11 => split at shown <;> cases shown
  all_goals cases shown

theorem tag_of_ofTag {tag : Tag} {manner : Manner} (shown : ofTag tag = manner)
    (notConstructed : manner ≠ constructed) (notWrapped : manner ≠ wrapped) :
    tag = ⟨.universal, false, tag.number⟩ ∧ ofNumber tag.number = manner := by
  rw [ofTag] at shown
  split at shown
  · exact absurd shown.symm notConstructed
  · rename_i primitive
    split at shown
    · rename_i universal
      refine ⟨?_, shown⟩
      obtain ⟨tagClass, constructed, number⟩ := tag
      obtain rfl : tagClass = .universal := universal
      obtain rfl : constructed = false := Bool.eq_false_iff.mpr primitive
      rfl
    · exact absurd shown.symm notWrapped

def unused? : Manner → Option UInt8
  | bits => some 0
  | _ => none

theorem block?_eq_some {mayNest : Bool} {manner : Manner} {data inner : Bytes}
    {unused : Option UInt8} (shown : manner.block? mayNest data = some (unused, inner)) :
    data = unused.toList ++ inner ∧ unused = manner.unused? := by
  rw [block?.eq_def] at shown
  split at shown
  · split at shown <;> cases shown
    exact ⟨rfl, rfl⟩
  · split at shown <;> cases shown
    exact ⟨rfl, rfl⟩
  · split at shown <;> cases shown
    exact ⟨rfl, rfl⟩
  · cases shown

theorem mayNest_of_block? {mayNest : Bool} {manner : Manner} {data : Bytes}
    {shown : Option UInt8 × Bytes} (found : manner.block? mayNest data = some shown) :
    mayNest = true := by
  rw [block?.eq_def] at found
  split at found
  · split at found
    · assumption
    · cases found
  · split at found
    · rename_i nests
      exact nests.1
    · cases found
  · split at found
    · rename_i nests
      exact nests.1
    · cases found
  · cases found

/-! ## Comments -/

theorem comment_eq_none {manner : Manner} (plain : ∀ relative, manner ≠ identifier relative)
    (layout : Layout) (data : Bytes) : manner.comment layout data = none := by
  cases manner with
  | identifier relative => exact absurd rfl (plain relative)
  | _ => rfl

theorem not_mem_identifier {mark : Char} (noDigit : Hex.value? mark = none)
    (noTick : mark ≠ '`') (noDecimal : mark.isDigit = false) (noPoint : mark ≠ '.')
    (relative : Bool) (data : Bytes) : mark ∉ ((identifier relative).text data).toList := by
  rw [text]
  cases decoded : ObjectIdentifier.decode? relative data with
  | none => exact Hex.not_mem_literal noDigit noTick data
  | some dotted =>
      obtain ⟨numbers, -, -, rfl⟩ := ObjectIdentifier.decode?_eq_some_iff.mp decoded
      intro member
      rcases ObjectIdentifier.mem_dotted member with isDigit | point
      · rw [noDecimal] at isDigit
        cases isDigit
      · exact noPoint point

/-! ## No line feeds -/

theorem no_feed_literal (data : Bytes) : '\n' ∉ (Body.literal data).toList := by
  rw [Body.literal]
  split
  · exact Quoted.no_feed_ofBytes data
  · exact Hex.no_feed_literal data

theorem no_feed_prefixedText {letter : String} (noFeed : '\n' ∉ letter.toList) (data : Bytes)
    (found : Option (List Char)) : '\n' ∉ (prefixedText letter data found).toList := by
  cases found with
  | none => exact Hex.no_feed_literal data
  | some text => exact Listing.no_feed_append noFeed (Quoted.no_feed_ofText text)

theorem no_feed_text (manner : Manner) (data : Bytes) : '\n' ∉ (manner.text data).toList := by
  cases manner with
  | truth =>
      rcases truth_kinds data with told | plain
      · rcases told with ⟨-, word⟩ | ⟨-, word⟩ <;> rw [word] <;> decide
      · rw [plain]
        exact no_feed_literal data
  | decimal =>
      rw [text]
      split
      · intro member
        rcases mem_toString_int member with isDigit | minus
        · cases isDigit
        · cases minus
      · exact no_feed_literal data
  | bits =>
      cases data with
      | nil => exact Hex.no_feed_literal []
      | cons unused others =>
          intro member
          rw [bits_text, List.mem_append] at member
          rcases member with inUnused | inBits
          · exact Hex.no_feed_literal _ inUnused
          · split at inBits
            · cases inBits
            · rcases List.mem_cons.mp inBits with feed | inOthers
              · cases feed
              · exact Hex.no_feed_literal _ inOthers
  | identifier relative => exact not_mem_identifier rfl (by decide) rfl (by decide) relative data
  | utf16 => exact no_feed_prefixedText (by decide) data _
  | utf32 => exact no_feed_prefixedText (by decide) data _
  | quoted => exact Quoted.no_feed_ofBytes data
  | wrapped | literal => exact no_feed_literal data
  | constructed | digits => exact Hex.no_feed_literal data

theorem no_feed_name {identifier name : String}
    (known : ObjectIdentifier.name? identifier = some name) : '\n' ∉ name.toList := by
  have all : ∀ entry ∈ ObjectIdentifier.wellKnown, '\n' ∉ entry.2.toList := by decide +kernel
  obtain ⟨front, back, whole, -⟩ := List.lookup_eq_some_iff.mp known
  refine all (identifier, name) ?_
  rw [whole]
  exact List.mem_append_right front (List.mem_cons_self ..)

theorem no_feed_comment (layout : Layout) (manner : Manner) (data : Bytes) :
    '\n' ∉ (Entry.commentPart (manner.comment layout data)).toList := by
  cases found : manner.comment layout data with
  | none => nofun
  | some name =>
      refine Listing.no_feed_append (by decide) ?_
      rw [comment.eq_def] at found
      split at found
      · split at found
        · obtain ⟨dotted, -, known⟩ := Option.bind_eq_some_iff.mp found
          exact no_feed_name known
        · cases found
      · cases found

end Manner

end ByteListing.Der
