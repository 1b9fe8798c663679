import ByteListing.Proofs.Text.Quoted
import ByteListing.Proofs.Text.Utf8Decoding

/-! # Literals end where they end

The inside of a literal is `Escaped`: every backslash has a character behind it that belongs to it,
and a quote stands nowhere else.  Whether a quote ends a literal can therefore be told from the
backslashes right before it: behind an odd number of them it is escaped (`odd_before_quote`), behind
an even number it is the last character.  So a literal is known from whatever begins with it
(`literal_append_inj`), and what it stands for is read from between its quotes by `unescape`. -/
set_option autoImplicit false
namespace ByteListing.Quoted

inductive IsLiteral : String → Prop
  | ofString (text : String) : IsLiteral (ofString text)
  | ofBytes (data : Bytes) : IsLiteral (ofBytes data)

def inside (literal : String) : List Char := (literal.toList.drop 1).dropLast

theorem inside_enclose (escaped : List Char) : inside (enclose escaped) = escaped := by
  rw [inside, enclose, String.toList_ofList, List.drop_one, List.tail_cons, List.dropLast_concat]

/-! ## Escapes -/

/-- Text in which every backslash is followed by a character that it escapes, and in which no other
quotes stand than escaped ones. -/
inductive Escaped : List Char → Prop
  | nil : Escaped []
  | plain {c : Char} {rest : List Char} :
      c ≠ '\\' → c ≠ '\"' → Escaped rest → Escaped (c :: rest)
  | pair {c : Char} {rest : List Char} : Escaped rest → Escaped ('\\' :: c :: rest)

theorem Escaped.append {first second : List Char} (escaped : Escaped first)
    (also : Escaped second) : Escaped (first ++ second) := by
  induction escaped with
  | nil => exact also
  | plain noBackslash noQuote _ inductionHypothesis =>
      exact .plain noBackslash noQuote inductionHypothesis
  | pair _ inductionHypothesis => exact .pair inductionHypothesis

theorem escaped_flatMap {Item : Type} {write : Item → List Char}
    (escaped : ∀ item, Escaped (write item)) (items : List Item) :
    Escaped (items.flatMap write) := by
  induction items with
  | nil => exact .nil
  | cons item rest inductionHypothesis =>
      rw [List.flatMap_cons]
      exact (escaped item).append inductionHypothesis

theorem escaped_plain {c : Char} (noBackslash : c ≠ '\\') (noQuote : c ≠ '\"') : Escaped [c] :=
  .plain noBackslash noQuote .nil

theorem escaped_pair (c : Char) : Escaped ['\\', c] := .pair .nil

theorem escaped_octet (byte : UInt8) : Escaped (Hex.octet byte) := by
  have plain : ∀ value < 16, Hex.digit value ≠ '\\' ∧ Hex.digit value ≠ '\"' := by decide
  have bound := byte.toNat_lt
  obtain ⟨highBackslash, highQuote⟩ := plain (byte.toNat / 16) (by omega)
  obtain ⟨lowBackslash, lowQuote⟩ := plain (byte.toNat % 16) (by omega)
  exact .plain highBackslash highQuote (escaped_plain lowBackslash lowQuote)

theorem escaped_escapeOctet (byte : UInt8) : Escaped (escapeOctet byte) :=
  .pair (escaped_octet byte)

theorem escaped_escapeChar (c : Char) : Escaped (escapeChar c) := by
  fun_cases escapeChar c with
  | case1 => exact escaped_pair _
  | case2 => exact escaped_pair _
  | case3 => exact escaped_pair _
  | case4 => exact escaped_pair _
  | case5 => exact escaped_pair _
  | case6 => exact escaped_flatMap escaped_escapeOctet _
  | case7 noBackslash noQuote => exact escaped_plain noBackslash noQuote

theorem escaped_escapeByte (byte : UInt8) : Escaped (escapeByte byte) := by
  fun_cases escapeByte byte with
  | case1 => exact escaped_pair _
  | case2 => exact escaped_pair _
  | case3 => exact escaped_pair _
  | case4 noBackslash noQuote =>
      exact escaped_plain (ofNat_toNat_ne noBackslash) (ofNat_toNat_ne noQuote)
  | case5 => exact escaped_escapeOctet byte

theorem escaped_escapeBytes (data : Bytes) : Escaped (escapeBytes data) := by
  rw [escapeBytes]
  split
  · exact escaped_flatMap escaped_escapeChar _
  · exact escaped_flatMap escaped_escapeByte data

theorem IsLiteral.eq_enclose {literal : String} (isLiteral : IsLiteral literal) :
    ∃ escaped, literal = enclose escaped ∧ Escaped escaped := by
  cases isLiteral with
  | ofString text => exact ⟨_, rfl, escaped_flatMap escaped_escapeChar _⟩
  | ofBytes data => exact ⟨_, rfl, escaped_escapeBytes data⟩

/-! ## Runs of backslashes -/

def backslashes (text : List Char) : Nat := (text.reverse.takeWhile (· = '\\')).length

theorem backslashes_concat_backslash (text : List Char) :
    backslashes (text ++ ['\\']) = backslashes text + 1 := by
  rw [backslashes, List.reverse_concat, List.takeWhile_cons_of_pos (by decide), List.length_cons,
    backslashes]

theorem backslashes_concat {c : Char} (noBackslash : c ≠ '\\') (text : List Char) :
    backslashes (text ++ [c]) = 0 := by
  rw [backslashes, List.reverse_concat,
    List.takeWhile_cons_of_neg (by rwa [decide_eq_true_eq]), List.length_nil]

theorem even_behind_pair {front : List Char} (even : backslashes front % 2 = 0) (c : Char) :
    backslashes (front ++ ['\\'] ++ [c]) % 2 = 0 := by
  by_cases backslash : c = '\\'
  · subst backslash
    rw [backslashes_concat_backslash, backslashes_concat_backslash]
    omega
  · rw [backslashes_concat backslash]

theorem even_behind_escaped {escaped : List Char} (isEscaped : Escaped escaped)
    {front : List Char} (even : backslashes front % 2 = 0) :
    backslashes (front ++ escaped) % 2 = 0 := by
  induction isEscaped generalizing front with
  | nil => rwa [List.append_nil]
  | @plain c rest noBackslash _ _ inductionHypothesis =>
      have noneBefore : backslashes (front ++ [c]) % 2 = 0 := by
        rw [backslashes_concat noBackslash]
      rw [List.append_cons]
      exact inductionHypothesis noneBefore
  | @pair c rest _ inductionHypothesis =>
      rw [List.append_cons, List.append_cons]
      exact inductionHypothesis (even_behind_pair even c)

theorem odd_before_quote {escaped : List Char} (isEscaped : Escaped escaped)
    {front before after : List Char} (even : backslashes front % 2 = 0)
    (split : escaped = before ++ '\"' :: after) : backslashes (front ++ before) % 2 = 1 := by
  induction isEscaped generalizing front before with
  | nil => exact absurd split.symm (by simp)
  | @plain c rest noBackslash noQuote _ inductionHypothesis =>
      cases before with
      | nil => exact absurd (List.cons.inj split).1 noQuote
      | cons first others =>
          obtain ⟨rfl, restSplit⟩ := List.cons.inj split
          have noneBefore : backslashes (front ++ [c]) % 2 = 0 := by
            rw [backslashes_concat noBackslash]
          rw [List.append_cons]
          exact inductionHypothesis noneBefore restSplit
  | @pair c rest _ inductionHypothesis =>
      cases before with
      | nil => cases (List.cons.inj split).1
      | cons first others =>
          obtain ⟨rfl, pairSplit⟩ := List.cons.inj split
          cases others with
          | nil =>
              rw [backslashes_concat_backslash]
              omega
          | cons second others =>
              obtain ⟨rfl, restSplit⟩ := List.cons.inj pairSplit
              rw [List.append_cons, List.append_cons]
              exact inductionHypothesis (even_behind_pair even c) restSplit

/-! ## Where literals end -/

theorem even_opening : backslashes ['\"'] % 2 = 0 := by decide

theorem even_before_closing {escaped : List Char} (isEscaped : Escaped escaped) :
    backslashes ('\"' :: escaped) % 2 = 0 :=
  even_behind_escaped isEscaped even_opening

/-- Of the quotes behind the first one, the last one and no other has an even number of backslashes
before it. -/
theorem last_quote_iff {literal : String} (isLiteral : IsLiteral literal)
    {before after : List Char} (split : literal.toList = before ++ '\"' :: after)
    (opened : before ≠ []) : after = [] ↔ backslashes before % 2 = 0 := by
  obtain ⟨escaped, rfl, isEscaped⟩ := isLiteral.eq_enclose
  obtain ⟨first, others, rfl⟩ := List.exists_cons_of_ne_nil opened
  rw [enclose, String.toList_ofList, List.cons_append] at split
  obtain ⟨rfl, whole⟩ := List.cons.inj split
  constructor
  · rintro rfl
    rw [← List.append_cancel_right whole]
    exact even_before_closing isEscaped
  · intro even
    rcases List.eq_nil_or_concat after with noneLeft | ⟨behind, last, rfl⟩
    · exact noneLeft
    · have shape : others ++ '\"' :: (behind ++ [last]) = (others ++ '\"' :: behind) ++ [last] := by
        simp only [List.append_assoc, List.cons_append]
      rw [List.concat_eq_append, shape] at whole
      have odd := odd_before_quote isEscaped even_opening (List.append_inj_left' whole rfl)
      rw [List.singleton_append, even] at odd
      cases odd

theorem nothing_behind_literal {first second : String} (isLiteral : IsLiteral first)
    (also : IsLiteral second) {more : List Char} (whole : second.toList = first.toList ++ more) :
    more = [] := by
  obtain ⟨escaped, rfl, isEscaped⟩ := isLiteral.eq_enclose
  have split : second.toList = ('\"' :: escaped) ++ '\"' :: more := by
    rw [whole, enclose, String.toList_ofList, List.cons_append, List.append_assoc]
    rfl
  exact (last_quote_iff also split (List.cons_ne_nil _ _)).mpr (even_before_closing isEscaped)

theorem literal_append_inj {first second : String} (isLiteral : IsLiteral first)
    (also : IsLiteral second) {rest others : List Char}
    (same : first.toList ++ rest = second.toList ++ others) : first = second ∧ rest = others := by
  rcases List.append_eq_append_iff.mp same with ⟨more, whole, rests⟩ | ⟨more, whole, rests⟩
  · obtain rfl := nothing_behind_literal isLiteral also whole
    rw [List.append_nil] at whole
    exact ⟨String.toList_inj.mp whole.symm, rests⟩
  · obtain rfl := nothing_behind_literal also isLiteral whole
    rw [List.append_nil] at whole
    exact ⟨String.toList_inj.mp whole, rests.symm⟩

/-! ## What literals stand for -/

theorem unescape_inside_ofBytes (data : Bytes) : unescape (inside (ofBytes data)) = data := by
  rw [ofBytes, inside_enclose, unescape_escapeBytes]

theorem unescape_inside_ofString (text : String) :
    unescape (inside (ofString text)) = Utf8.encode text.toList := by
  rw [ofString, ofText, inside_enclose, unescape_escapeText]

theorem ofString_inj {first second : String} (same : ofString first = ofString second) :
    first = second := by
  have encoded := encode_eq_of_ofText_eq same
  exact String.toList_inj.mp (Utf8.encode_inj encoded)

theorem isControl_of_mem_literal {literal : String} (isLiteral : IsLiteral literal) {c : Char}
    (member : c ∈ literal.toList) : Unicode.isControl c = false := by
  have enclosed : ∀ escaped, (∀ shown ∈ escaped, Unicode.isControl shown = false) →
      c ∈ (enclose escaped).toList → Unicode.isControl c = false := by
    intro escaped visible shown
    rw [enclose, String.toList_ofList, List.mem_cons, List.mem_append, List.mem_singleton] at shown
    rcases shown with rfl | inEscaped | rfl
    · decide
    · exact visible c inEscaped
    · decide
  cases isLiteral with
  | ofString text =>
      refine enclosed _ (fun shown inEscaped => ?_) member
      obtain ⟨source, -, written⟩ := List.mem_flatMap.mp inEscaped
      exact isControl_of_mem_escapeChar written
  | ofBytes data => exact enclosed _ (fun shown => isControl_of_mem_escapeBytes) member

/-- What is quoted is read back by one reader, whether it was a text or any byte string, so that
different ones have different literals.  A literal holds no control character, begins and ends with
a quote, and has an odd number of backslashes before every quote between these, so that no literal
begins another one. -/
theorem literals_read_back_and_end :
    (∀ data : Bytes, unescape (inside (ofBytes data)) = data) ∧
    (∀ text : String, unescape (inside (ofString text)) = Utf8.encode text.toList) ∧
    (∀ first second : Bytes, ofBytes first = ofBytes second → first = second) ∧
    (∀ first second : String, ofString first = ofString second → first = second) ∧
    (∀ literal : String, IsLiteral literal →
      (∀ c ∈ literal.toList, Unicode.isControl c = false) ∧
      (literal.toList = '\"' :: (inside literal ++ ['\"'])) ∧
      (∀ before after : List Char, literal.toList = before ++ '\"' :: after → before ≠ [] →
        (after = [] ↔ backslashes before % 2 = 0)) ∧
      ∀ (other : String) (rest others : List Char), IsLiteral other →
        literal.toList ++ rest = other.toList ++ others → literal = other ∧ rest = others) := by
  refine ⟨unescape_inside_ofBytes, unescape_inside_ofString, fun _ _ => ofBytes_inj,
    fun _ _ => ofString_inj, ?_⟩
  intro literal isLiteral
  refine ⟨fun c => isControl_of_mem_literal isLiteral, ?_, ?_, ?_⟩
  · obtain ⟨escaped, rfl, -⟩ := isLiteral.eq_enclose
    rw [inside_enclose, enclose, String.toList_ofList]
  · intro before after split opened
    exact last_quote_iff isLiteral split opened
  · intro other rest others also same
    exact literal_append_inj isLiteral also same

theorem literal_of_escapes :
    IsLiteral (ofBytes [0x5C, 0x22, 0xFF]) ∧
    (ofBytes [0x5C, 0x22, 0xFF]).toList =
      ['\"', '\\', '\\', '\\'] ++ '\"' :: ['\\', 'x', 'f', 'f', '\"'] ∧
    (['\\', 'x', 'f', 'f', '\"'] = [] ↔ backslashes ['\"', '\\', '\\', '\\'] % 2 = 0) ∧
    (∀ c ∈ (ofBytes [0x5C, 0x22, 0xFF]).toList, Unicode.isControl c = false) := by
  have isLiteral : IsLiteral (ofBytes [0x5C, 0x22, 0xFF]) := .ofBytes _
  have split : (ofBytes [0x5C, 0x22, 0xFF]).toList =
      ['\"', '\\', '\\', '\\'] ++ '\"' :: ['\\', 'x', 'f', 'f', '\"'] := by decide +kernel
  obtain ⟨visible, -, ends, -⟩ := literals_read_back_and_end.2.2.2.2 _ isLiteral
  exact ⟨isLiteral, split, ends _ _ split (List.cons_ne_nil _ _), visible⟩

end ByteListing.Quoted
