import ByteListing.Proofs.Der.Composition

/-! # The elements in a body of open length

The end of an open body is found by reading the elements in it one after the other, at a depth of
their own and with all of the input still behind them (`Search`).  The body that is cut off there is
read once more, from its start and at depth zero.  An encoding at some depth is one at every smaller
depth, so both readings find the same elements (`search_of_open`). -/
set_option autoImplicit false
namespace ByteListing.Der

/-! ## Smaller depths -/

mutual

theorem Encoding.shallower {depth outer : Nat} {tag : Tag} {indefinite : Bool}
    {body octets : Bytes} (encoding : Encoding depth tag indefinite body octets)
    (less : outer ≤ depth) : Encoding outer tag indefinite body octets := by
  match encoding with
  | .definite tagWritten lengthWritten => exact .definite tagWritten lengthWritten
  | .indefinite tagWritten constructed shallow contents =>
      have inner := contents.shallower (Nat.succ_le_succ less)
      exact .indefinite tagWritten constructed (Nat.lt_of_le_of_lt less shallow) inner

theorem Contents.shallower {depth outer : Nat} {body : Bytes} (contents : Contents depth body)
    (less : outer ≤ depth) : Contents outer body := by
  match contents with
  | .nil => exact .nil
  | .cons encoding plain following =>
      exact .cons (encoding.shallower less) plain (following.shallower less)

end

namespace Element

/-! ## The search for a terminator -/

def totalLength : List Element → Nat
  | [] => 0
  | element :: rest => element.encodedLength + totalLength rest

/-- The elements that are read one after the other, until two zero octets stand where the next would
begin. -/
inductive Search (parse : Bytes → Option Element) : Bytes → List Element → Prop
  | ended {data : Bytes} : atTerminator data = true → Search parse data []
  | child {data : Bytes} {child : Element} {children : List Element} :
      atTerminator data = false → parse data = some child →
      0 < child.encodedLength ∧ child.encodedLength ≤ data.length →
      Search parse (data.drop child.encodedLength) children → Search parse data (child :: children)

theorem openBodyLength?_iff_search {parse : Bytes → Option Element} {data : Bytes} {size : Nat} :
    openBodyLength? parse data = some size ↔
      ∃ children, Search parse data children ∧ totalLength children = size := by
  constructor
  · intro success
    fun_induction openBodyLength? parse data generalizing size with
    | case1 data terminated =>
        obtain rfl := Option.some.inj success
        exact ⟨[], .ended terminated, rfl⟩
    | case2 data unterminated failed => cases success
    | case3 data unterminated child read inside inductionHypothesis =>
        obtain ⟨later, found, rfl⟩ := Option.map_eq_some_iff.mp success
        obtain ⟨children, search, rfl⟩ := inductionHypothesis found
        refine ⟨child :: children, ?_, rfl⟩
        exact .child (Bool.eq_false_iff.mpr unterminated) read inside search
    | case4 data unterminated child read outside => cases success
  · rintro ⟨children, search, rfl⟩
    induction search with
    | ended terminated =>
        rw [openBodyLength?, if_pos terminated]
        rfl
    | child unterminated read inside _ inductionHypothesis =>
        rw [openBodyLength?, unterminated, if_neg Bool.false_ne_true, read]
        simp only [dif_pos inside, inductionHypothesis, Option.map_some]
        rfl

theorem Search.unique {parse : Bytes → Option Element} {data : Bytes}
    {first second : List Element} (search : Search parse data first)
    (other : Search parse data second) : first = second := by
  induction search generalizing second with
  | ended terminated =>
      cases other with
      | ended => rfl
      | child unterminated => cases terminated.symm.trans unterminated
  | child unterminated read inside _ inductionHypothesis =>
      cases other with
      | ended terminated => cases terminated.symm.trans unterminated
      | child _ otherRead _ otherSearch =>
          obtain rfl := Option.some.inj (read.symm.trans otherRead)
          rw [inductionHypothesis otherSearch]

/-! ## Both readings -/

theorem search_of_contents {depth nesting : Nat} (room : depth + nesting = 64) {body : Bytes}
    (contents : Contents depth body) (rest : Bytes) :
    ∃ children, Search (parseNested? nesting) (body ++ [0x00, 0x00] ++ rest) children ∧
      parseAll body = (children, []) := by
  match contents with
  | .nil =>
      refine ⟨[], .ended rfl, ?_⟩
      rw [parseAll]
      rfl
  | @Contents.cons _ tag indefinite child octets others encoding plain following =>
      obtain ⟨children, search, whole⟩ := search_of_contents room following rest
      have long := encoding.two_le_length
      have shape : octets ++ others ++ [0x00, 0x00] ++ rest =
          octets ++ (others ++ [0x00, 0x00] ++ rest) := by
        simp only [List.append_assoc]
      refine ⟨⟨tag, indefinite, child, octets.length⟩ :: children, ?_, ?_⟩
      · have inside : 0 < octets.length ∧
            octets.length ≤ (octets ++ (others ++ [0x00, 0x00] ++ rest)).length := by
          rw [List.length_append]
          omega
        rw [shape]
        refine .child (atTerminator_append long plain _) (parseNested?_append encoding room _)
          inside ?_
        rw [List.drop_left]
        exact search
      · rw [parseAll_encoded (encoding.shallower (Nat.zero_le depth)), whole]

theorem totalLength_of_parseAll {data : Bytes} {elements : List Element}
    (whole : parseAll data = (elements, [])) :
    totalLength elements = data.length := by
  fun_induction parseAll data generalizing elements with
  | case1 data empty =>
      obtain ⟨rfl, -⟩ := Prod.mk.inj whole
      rw [List.isEmpty_iff.mp empty]
      rfl
  | case2 data occupied failed =>
      obtain ⟨-, rfl⟩ := Prod.mk.inj whole
      simp at occupied
  | case3 data occupied element read inside following =>
      rename_i inductionHypothesis
      obtain ⟨rfl, ended⟩ := Prod.mk.inj whole
      have later := inductionHypothesis (Prod.ext rfl ended)
      rw [List.length_drop] at later
      rw [totalLength, later]
      omega
  | case4 data occupied element read outside =>
      obtain ⟨-, rfl⟩ := Prod.mk.inj whole
      simp at occupied

/-- Where an element of open length was read, at whatever depth, its body ends where the search
ends, and the elements that were found in search of its end are those of its body on its own. -/
theorem search_of_open {nesting : Nat} (inside : nesting < 64) {data : Bytes} {element : Element}
    (read : parseNested? (nesting + 1) data = some element)
    (indefinite : element.indefinite = true) :
    ∃ header rest children,
      data = header ++ (element.body ++ [0x00, 0x00] ++ rest) ∧
      element.encodedLength = header.length + element.body.length + 2 ∧
      openBodyLength? (parseNested? nesting) (element.body ++ [0x00, 0x00] ++ rest) =
        some element.body.length ∧
      Search (parseNested? nesting) (element.body ++ [0x00, 0x00] ++ rest) children ∧
      parseAll element.body = (children, []) := by
  -- With that many levels left, the element stands at the depth that is missing to all 64.
  have room : 63 - nesting + (nesting + 1) = 64 := by omega
  obtain ⟨octets, rest, rfl, encoding, size⟩ := encoded_of_parseNested? room read
  rw [indefinite] at encoding
  cases encoding with
  | @indefinite _ _ _ tagOctets tagWritten constructed shallow contents =>
      have deeper : 63 - nesting + 1 + nesting = 64 := by omega
      obtain ⟨children, search, whole⟩ := search_of_contents deeper contents rest
      have ends := openBodyLength?_iff_search.mpr ⟨children, search, totalLength_of_parseAll whole⟩
      refine ⟨tagOctets ++ [0x80], rest, children, ?_, ?_, ends, search, whole⟩
      · simp only [List.append_assoc, List.cons_append, List.nil_append]
      · rw [size]
        simp only [List.length_append, List.length_cons, List.length_nil]
        omega

end Element

end ByteListing.Der
