import ByteListing.Proofs.Der.Encoding

/-! # Reading encoded elements

The reader of elements accepts exactly the encodings.  Tags, lengths and elements each have a
pair of statements: what was written is read back whatever follows it, and what is read was
written that way.  The nesting that the reader still allows and the depth of an encoding add up
to sixty-four.

`parse?_iff_encoding` is the summary: an element is read exactly if some beginning of the input
encodes it, that beginning is the only one, and nothing behind it matters. -/
set_option autoImplicit false
namespace ByteListing.Der

/-! ## Tags -/

namespace Tag

theorem toNat_lead (tag : Tag) {low : Nat} (small : low < 32) :
    (tag.lead low).toNat = 64 * tag.tagClass.bits + 32 * tag.constructed.toNat + low := by
  have classSmall : tag.tagClass.bits ≤ 3 := by cases tag.tagClass <;> decide
  have formSmall : tag.constructed.toNat ≤ 1 := Bool.toNat_le tag.constructed
  rw [lead, UInt8.toNat_ofNat']
  omega

theorem bits_classOf (octet : UInt8) : (classOf octet).bits = octet.toNat / 64 := by
  have bound := octet.toNat_lt
  simp only [classOf, UInt8.lt_iff_toNat_lt, UInt8.reduceToNat]
  split
  · simp only [TagClass.bits]
    omega
  · split
    · simp only [TagClass.bits]
      omega
    · split
      · simp only [TagClass.bits]
        omega
      · simp only [TagClass.bits]
        omega

theorem bits_injective {first second : TagClass} (equal : first.bits = second.bits) :
    first = second := by
  cases first <;> cases second <;> first | rfl | cases equal

theorem toNat_constructedIn (octet : UInt8) :
    (constructedIn octet).toNat = octet.toNat / 32 % 2 := by
  rcases Nat.mod_two_eq_zero_or_one (octet.toNat / 32) with even | odd
  · simp [constructedIn, even]
  · simp [constructedIn, odd]

theorem classOf_lead (tag : Tag) {low : Nat} (small : low < 32) :
    classOf (tag.lead low) = tag.tagClass := by
  have value := toNat_lead tag small
  have formSmall : tag.constructed.toNat ≤ 1 := Bool.toNat_le tag.constructed
  refine bits_injective ?_
  rw [bits_classOf]
  omega

theorem constructedIn_lead (tag : Tag) {low : Nat} (small : low < 32) :
    constructedIn (tag.lead low) = tag.constructed := by
  have value := toNat_lead tag small
  have bit : (tag.lead low).toNat / 32 % 2 = tag.constructed.toNat := by
    have formSmall : tag.constructed.toNat ≤ 1 := Bool.toNat_le tag.constructed
    omega
  rw [constructedIn, bit]
  cases tag.constructed <;> rfl

theorem low_lead (tag : Tag) {low : Nat} (small : low < 32) : (tag.lead low).toNat % 32 = low := by
  rw [toNat_lead tag small]
  omega

theorem lead_of_octet (first : UInt8) (number : Nat) :
    lead ⟨classOf first, constructedIn first, number⟩ (first.toNat % 32) = first := by
  have bound := first.toNat_lt
  refine UInt8.toNat_inj.mp ?_
  rw [toNat_lead _ (Nat.mod_lt _ (by decide))]
  simp only [bits_classOf, toNat_constructedIn]
  omega

theorem parse?_append {tag : Tag} {octets : Bytes} (written : tag.Octets octets)
    (rest : Bytes) : parse? (octets ++ rest) = some (tag, rest) := by
  cases written with
  | low small =>
      have number : (tag.lead tag.number).toNat % 32 = tag.number := low_lead tag (by omega)
      have other : tag.number ≠ 31 := by omega
      rw [List.cons_append, List.nil_append, parse?]
      simp only [number, if_neg other, classOf_lead tag (by omega : tag.number < 32),
        constructedIn_lead tag (by omega : tag.number < 32)]
  | @high groups terminated value small =>
      have number : (tag.lead 31).toNat % 32 = 31 := low_lead tag (by decide)
      rw [List.cons_append, parse?]
      simp only [number, if_true, classOf_lead tag (by decide : 31 < 32),
        constructedIn_lead tag (by decide : 31 < 32)]
      have same : Base128.mostFirst? (Nat.pow 2 32) 0 (groups ++ rest) =
          some (tag.number, rest) := by
        rw [← value] at small ⊢
        exact Base128.mostFirst?_append terminated small rest
      rw [same, Option.map_some]

theorem octets_of_parse? {data rest : Bytes} {tag : Tag}
    (success : parse? data = some (tag, rest)) :
    ∃ octets, data = octets ++ rest ∧ tag.Octets octets := by
  cases data with
  | nil => simp [parse?] at success
  | cons first following =>
      simp only [parse?] at success
      by_cases extended : first.toNat % 32 = 31
      · rw [if_pos extended] at success
        obtain ⟨⟨number, after⟩, found, equal⟩ := Option.map_eq_some_iff.mp success
        obtain ⟨rfl, rfl⟩ := Prod.mk.inj equal
        obtain ⟨groups, rfl, terminated, value, small⟩ := Base128.mostFirst?_iff.mp found
        refine ⟨first :: groups, rfl, ?_⟩
        have same := lead_of_octet first number
        rw [extended] at same
        have written : Octets ⟨classOf first, constructedIn first, number⟩
            (lead ⟨classOf first, constructedIn first, number⟩ 31 :: groups) :=
          .high terminated value.symm small
        rwa [same] at written
      · rw [if_neg extended] at success
        obtain ⟨rfl, rfl⟩ := Prod.mk.inj (Option.some.inj success)
        refine ⟨[first], rfl, ?_⟩
        have written : Octets ⟨classOf first, constructedIn first, first.toNat % 32⟩
            [lead ⟨classOf first, constructedIn first, first.toNat % 32⟩
              (first.toNat % 32)] :=
          .low (by show first.toNat % 32 ≤ 30; omega)
        rwa [lead_of_octet] at written

end Tag

/-! ## Lengths -/

namespace Length

theorem parse?_append {size : Nat} {octets : Bytes} (written : Octets size octets)
    (rest : Bytes) : parse? (octets ++ rest) = some (definite size, rest) := by
  cases written with
  | short small =>
      have value : (UInt8.ofNat size).toNat = size := by
        rw [UInt8.toNat_ofNat']
        omega
      have below : UInt8.ofNat size < 0x80 := by
        rw [UInt8.lt_iff_toNat_lt, value]
        exact small
      rw [List.cons_append, List.nil_append, parse?, if_pos below, value]
  | @long digits someDigits fewDigits exact =>
      have value : (UInt8.ofNat (128 + digits.length)).toNat = 128 + digits.length := by
        rw [UInt8.toNat_ofNat']
        omega
      have above : ¬ UInt8.ofNat (128 + digits.length) < 0x80 := by
        rw [UInt8.lt_iff_toNat_lt, value]
        simp
      have unequal : UInt8.ofNat (128 + digits.length) ≠ 0x80 := by
        intro equal
        have same := congrArg UInt8.toNat equal
        rw [value] at same
        have noneLeft : 128 + digits.length = 128 := same
        omega
      have count : (UInt8.ofNat (128 + digits.length)).toNat - 128 = digits.length := by omega
      have present : digits.length ≤ 8 ∧ digits.length ≤ (digits ++ rest).length := by
        rw [List.length_append]
        omega
      rw [List.cons_append, parse?, if_neg above, if_neg unequal]
      simp only [count, if_pos present, List.take_left, List.drop_left, exact]

theorem octets_of_parse? {data rest : Bytes} {length : Length}
    (success : parse? data = some (length, rest)) :
    (∃ size octets, length = definite size ∧ data = octets ++ rest ∧ Octets size octets) ∨
      length = indefinite ∧ data = 0x80 :: rest := by
  cases data with
  | nil => simp [parse?] at success
  | cons first following =>
      have bound := first.toNat_lt
      rw [parse?] at success
      by_cases below : first < 0x80
      · rw [if_pos below] at success
        obtain ⟨rfl, rfl⟩ := Prod.mk.inj (Option.some.inj success)
        have written : Octets first.toNat [UInt8.ofNat first.toNat] := .short below
        rw [UInt8.ofNat_toNat] at written
        exact .inl ⟨first.toNat, [first], rfl, rfl, written⟩
      · rw [if_neg below] at success
        by_cases openMark : first = 0x80
        · rw [if_pos openMark] at success
          obtain ⟨rfl, rfl⟩ := Prod.mk.inj (Option.some.inj success)
          exact .inr ⟨rfl, by rw [openMark]⟩
        · rw [if_neg openMark] at success
          simp only at success
          split at success
          · rename_i present
            obtain ⟨rfl, rfl⟩ := Prod.mk.inj (Option.some.inj success)
            have large : 128 < first.toNat := by
              have notLess : ¬ first.toNat < 128 := below
              have notEqual : first.toNat ≠ 128 := fun same =>
                openMark (UInt8.toNat_inj.mp same)
              omega
            have taken : (following.take (first.toNat - 128)).length = first.toNat - 128 := by
              rw [List.length_take]
              omega
            have written : Octets (Bytes.bigEndian (following.take (first.toNat - 128)))
                (UInt8.ofNat (128 + (following.take (first.toNat - 128)).length) ::
                  following.take (first.toNat - 128)) :=
              .long (by omega) (by omega) rfl
            have same : UInt8.ofNat (128 + (following.take (first.toNat - 128)).length) =
                first := by
              rw [taken, Nat.add_sub_cancel' (Nat.le_of_lt large), UInt8.ofNat_toNat]
            rw [same] at written
            refine .inl ⟨_, first :: following.take (first.toNat - 128), rfl, ?_, written⟩
            rw [List.cons_append, List.take_append_drop]
          · simp at success

end Length

/-! ## Encodings are read back -/

theorem Tag.Octets.length_pos {tag : Tag} {octets : Bytes} (written : tag.Octets octets) :
    0 < octets.length := by
  cases written <;> simp

theorem Length.Octets.length_pos {size : Nat} {octets : Bytes}
    (written : Length.Octets size octets) : 0 < octets.length := by
  cases written <;> simp

theorem Encoding.two_le_length {depth : Nat} {tag : Tag} {indefinite : Bool}
    {body octets : Bytes} (encoding : Encoding depth tag indefinite body octets) :
    2 ≤ octets.length := by
  cases encoding with
  | definite tagWritten lengthWritten =>
      have tagLength := tagWritten.length_pos
      have lengthLength := lengthWritten.length_pos
      simp only [List.length_append]
      omega
  | indefinite tagWritten constructed shallow contents =>
      have tagLength := tagWritten.length_pos
      simp only [List.length_append, List.length_cons]
      omega

namespace Element

theorem parseWith?_definite (openLength? : Bytes → Option Nat) {tag : Tag}
    {body tagOctets lengthOctets : Bytes} (tagWritten : tag.Octets tagOctets)
    (lengthWritten : Length.Octets body.length lengthOctets) (rest : Bytes) :
    parseWith? openLength? (tagOctets ++ lengthOctets ++ body ++ rest) =
      some ⟨tag, false, body, (tagOctets ++ lengthOctets ++ body).length⟩ := by
  have shape : tagOctets ++ lengthOctets ++ body ++ rest =
      tagOctets ++ (lengthOctets ++ (body ++ rest)) := by
    simp only [List.append_assoc]
  have room : body.length ≤ (body ++ rest).length := by
    rw [List.length_append]
    omega
  rw [shape, parseWith?, Tag.parse?_append tagWritten]
  simp only [Length.parse?_append lengthWritten, if_pos room, List.take_left]
  simp only [List.length_append, Option.some.injEq, Element.mk.injEq, true_and]
  omega

theorem parseWith?_open {openLength? : Bytes → Option Nat} {tag : Tag}
    {body tagOctets : Bytes} (tagWritten : tag.Octets tagOctets)
    (constructed : tag.constructed = true) {rest : Bytes}
    (ended : openLength? (body ++ [0x00, 0x00] ++ rest) = some body.length) :
    parseWith? openLength? (tagOctets ++ 0x80 :: body ++ [0x00, 0x00] ++ rest) =
      some ⟨tag, true, body, (tagOctets ++ 0x80 :: body ++ [0x00, 0x00]).length⟩ := by
  have shape : tagOctets ++ 0x80 :: body ++ [0x00, 0x00] ++ rest =
      tagOctets ++ (0x80 :: (body ++ [0x00, 0x00] ++ rest)) := by
    simp only [List.append_assoc, List.cons_append]
  have mark (contents : Bytes) :
      Length.parse? (0x80 :: contents) = some (.indefinite, contents) := rfl
  have taken : (body ++ [0x00, 0x00] ++ rest).take body.length = body := by
    rw [List.append_assoc, List.take_left]
  rw [shape, parseWith?, Tag.parse?_append tagWritten]
  simp only [mark, constructed, if_true, ended, Option.map_some, taken]
  simp only [List.length_append, List.length_cons, List.length_nil, Option.some.injEq,
    Element.mk.injEq, true_and]
  omega

theorem atTerminator_iff {data : Bytes} :
    atTerminator data = true ↔ [0x00, 0x00] <+: data := by
  constructor
  · intro terminated
    unfold atTerminator at terminated
    split at terminated
    · rename_i rest
      exact ⟨rest, rfl⟩
    · cases terminated
  · rintro ⟨rest, rfl⟩
    rfl

theorem atTerminator_append {octets : Bytes} (long : 2 ≤ octets.length)
    (plain : ¬ [0x00, 0x00] <+: octets) (rest : Bytes) : atTerminator (octets ++ rest) = false := by
  refine Bool.eq_false_iff.mpr fun terminated => plain ?_
  have start := atTerminator_iff.mp terminated
  exact List.prefix_of_prefix_length_le start (List.prefix_append octets rest) long

mutual

/-- An encoding is read back, whatever follows it. -/
theorem parseNested?_append {depth : Nat} {tag : Tag} {indefinite : Bool}
    {body octets : Bytes} (encoding : Encoding depth tag indefinite body octets)
    {nesting : Nat} (room : depth + nesting = 64) (rest : Bytes) :
    parseNested? nesting (octets ++ rest) = some ⟨tag, indefinite, body, octets.length⟩ := by
  match encoding with
  | .definite tagWritten lengthWritten =>
      cases nesting with
      | zero => exact parseWith?_definite _ tagWritten lengthWritten rest
      | succ nesting => exact parseWith?_definite _ tagWritten lengthWritten rest
  | .indefinite tagWritten constructed shallow contents =>
      cases nesting with
      | zero => omega
      | succ nesting =>
          have deeper : depth + 1 + nesting = 64 := by omega
          have ended := openBodyLength?_append contents deeper rest
          exact parseWith?_open tagWritten constructed ended

theorem openBodyLength?_append {depth : Nat} {body : Bytes} (contents : Contents depth body)
    {nesting : Nat} (room : depth + nesting = 64) (rest : Bytes) :
    openBodyLength? (parseNested? nesting) (body ++ [0x00, 0x00] ++ rest) = some body.length := by
  match contents with
  | .nil =>
      rw [openBodyLength?]
      rfl
  | @Contents.cons _ _ _ _ octets others encoding plain following =>
      have long := encoding.two_le_length
      have child := parseNested?_append encoding room (others ++ [0x00, 0x00] ++ rest)
      have later := openBodyLength?_append following room rest
      have inside : 0 < octets.length ∧
          octets.length ≤ (octets ++ (others ++ [0x00, 0x00] ++ rest)).length := by
        rw [List.length_append]
        omega
      have shape : octets ++ others ++ [0x00, 0x00] ++ rest =
          octets ++ (others ++ [0x00, 0x00] ++ rest) := by
        simp only [List.append_assoc]
      rw [shape, openBodyLength?, atTerminator_append long plain]
      simp only [child, Bool.false_eq_true, if_false, dif_pos inside, List.drop_left, later,
        Option.map_some]
      rw [List.length_append]

end

/-! ## What is read was encoded -/

/-- The element is encoded by the octets that it takes from the front of the input. -/
def Encoded (depth : Nat) (element : Element) (data : Bytes) : Prop :=
  ∃ octets rest, data = octets ++ rest ∧
    Encoding depth element.tag element.indefinite element.body octets ∧
    element.encodedLength = octets.length

/-- The octets before the terminator of an open body are encodings. -/
def Ended (depth size : Nat) (data : Bytes) : Prop :=
  ∃ body rest, data = body ++ [0x00, 0x00] ++ rest ∧ body.length = size ∧ Contents depth body

theorem encoded_of_parseWith? {openLength? : Bytes → Option Nat} {depth : Nat}
    (opened : ∀ contents size, openLength? contents = some size →
      depth < 64 ∧ Ended (depth + 1) size contents)
    {data : Bytes} {element : Element} (success : parseWith? openLength? data = some element) :
    Encoded depth element data := by
  rw [parseWith?] at success
  split at success
  · simp at success
  · rename_i tag afterTag tagRead
    obtain ⟨tagOctets, rfl, tagWritten⟩ := Tag.octets_of_parse? tagRead
    split at success
    · simp at success
    · rename_i size contents lengthRead
      split at success
      · rename_i present
        obtain ⟨size, lengthOctets, same, rfl, lengthWritten⟩ | ⟨same, -⟩ :=
          Length.octets_of_parse? lengthRead
        · obtain rfl := Length.definite.inj same
          obtain rfl := Option.some.inj success
          have taken : (contents.take size).length = size := by
            rw [List.length_take]
            omega
          rw [← taken] at lengthWritten
          refine ⟨_, contents.drop size, ?_, .definite tagWritten lengthWritten, ?_⟩
          · simp only [List.append_assoc, List.take_append_drop]
          · simp only [List.length_append]
            omega
        · cases same
      · simp at success
    · rename_i contents lengthRead
      split at success
      · rename_i constructed
        obtain ⟨size, ended, equal⟩ := Option.map_eq_some_iff.mp success
        obtain ⟨shallow, body, rest, rfl, rfl, inner⟩ := opened contents size ended
        obtain ⟨size, lengthOctets, same, -⟩ | ⟨-, rfl⟩ := Length.octets_of_parse? lengthRead
        · cases same
        · subst equal
          have taken : (body ++ [0x00, 0x00] ++ rest).take body.length = body := by
            rw [List.append_assoc, List.take_left]
          simp only [taken, Encoded]
          refine ⟨_, rest, ?_, .indefinite tagWritten constructed shallow inner, ?_⟩
          · simp only [List.append_assoc, List.cons_append]
          · simp only [List.length_append, List.length_cons, List.length_nil]
            omega
      · simp at success

theorem ended_of_openBodyLength? {parse : Bytes → Option Element} {depth : Nat}
    (sound : ∀ contents child, parse contents = some child → Encoded depth child contents)
    {data : Bytes} {size : Nat} (success : openBodyLength? parse data = some size) :
    Ended depth size data := by
  fun_induction openBodyLength? parse data generalizing size with
  | case1 data terminated =>
      obtain rfl := Option.some.inj success
      obtain ⟨rest, rfl⟩ := atTerminator_iff.mp terminated
      exact ⟨[], rest, rfl, rfl, .nil⟩
  | case2 data unterminated failed => cases success
  | case3 data unterminated child childRead inside inductionHypothesis =>
      obtain ⟨later, found, rfl⟩ := Option.map_eq_some_iff.mp success
      obtain ⟨octets, behind, rfl, encoding, size⟩ := sound _ _ childRead
      rw [size, List.drop_left] at found inductionHypothesis
      obtain ⟨others, rest, rfl, rfl, following⟩ := inductionHypothesis found
      have plain : ¬ [0x00, 0x00] <+: octets := fun start =>
        unterminated (atTerminator_iff.mpr (start.trans (List.prefix_append octets _)))
      refine ⟨octets ++ others, rest, ?_, ?_, .cons encoding plain following⟩
      · simp only [List.append_assoc]
      · rw [List.length_append, size]
  | case4 data unterminated child childRead outside => cases success

theorem encoded_of_parseNested? {nesting depth : Nat} (room : depth + nesting = 64)
    {data : Bytes} {element : Element} (success : parseNested? nesting data = some element) :
    Encoded depth element data := by
  induction nesting generalizing depth data element with
  | zero =>
      refine encoded_of_parseWith? ?_ success
      intro contents size ended
      cases ended
  | succ nesting inductionHypothesis =>
      refine encoded_of_parseWith? ?_ success
      intro contents size ended
      refine ⟨by omega, ended_of_openBodyLength? ?_ ended⟩
      intro inner child childRead
      exact inductionHypothesis (by omega) childRead

/-! ## The reader and the encodings -/

theorem parse?_append {tag : Tag} {indefinite : Bool} {body octets : Bytes}
    (encoding : Encoding 0 tag indefinite body octets) (rest : Bytes) :
    parse? (octets ++ rest) = some ⟨tag, indefinite, body, octets.length⟩ :=
  parseNested?_append encoding rfl rest

theorem parse?_iff_encoded {data : Bytes} {element : Element} :
    parse? data = some element ↔ Encoded 0 element data := by
  constructor
  · exact encoded_of_parseNested? rfl
  · rintro ⟨octets, rest, rfl, encoding, size⟩
    rw [parse?_append encoding, ← size]

/-- An element is read exactly if some beginning of the input encodes it, with its tag, its
form of length, its body and the number of octets it takes.  No other beginning encodes
anything.  The element takes at least two octets of the input, and what stands behind them can
be cut off or exchanged. -/
theorem parse?_iff_encoding (data : Bytes) :
    (∀ element : Element, parse? data = some element ↔
      ∃ octets rest, data = octets ++ rest ∧
        Encoding 0 element.tag element.indefinite element.body octets ∧
        element.encodedLength = octets.length) ∧
    (∀ (first second : Bytes) (firstTag secondTag : Tag) (firstForm secondForm : Bool)
        (firstBody secondBody : Bytes),
      first <+: data → Encoding 0 firstTag firstForm firstBody first →
      second <+: data → Encoding 0 secondTag secondForm secondBody second →
      first = second ∧ firstTag = secondTag ∧ firstForm = secondForm ∧
        firstBody = secondBody) ∧
    ∀ element : Element, parse? data = some element →
      2 ≤ element.encodedLength ∧ element.encodedLength ≤ data.length ∧
      parse? (data.take element.encodedLength) = some element ∧
      ∀ extra, parse? (data ++ extra) = some element := by
  refine ⟨fun element => parse?_iff_encoded, ?_, ?_⟩
  · intro first second firstTag secondTag firstForm secondForm firstBody secondBody
      firstPart firstEncoding secondPart secondEncoding
    obtain ⟨firstRest, firstWhole⟩ := firstPart
    obtain ⟨secondRest, secondWhole⟩ := secondPart
    have firstRead := parse?_append firstEncoding firstRest
    have secondRead := parse?_append secondEncoding secondRest
    rw [firstWhole] at firstRead
    rw [secondWhole, firstRead] at secondRead
    simp only [Option.some.injEq, Element.mk.injEq] at secondRead
    obtain ⟨tags, forms, bodies, lengths⟩ := secondRead
    exact ⟨List.append_inj_left (firstWhole.trans secondWhole.symm) lengths, tags, forms,
      bodies⟩
  · intro element success
    obtain ⟨octets, rest, rfl, encoding, size⟩ := parse?_iff_encoded.mp success
    have long := encoding.two_le_length
    have cut : (octets ++ rest).take element.encodedLength = octets ++ [] := by
      rw [size, List.take_left, List.append_nil]
    refine ⟨by omega, ?_, ?_, ?_⟩
    · rw [List.length_append]
      omega
    · rw [cut]
      exact parse?_iff_encoded.mpr ⟨octets, [], rfl, encoding, size⟩
    · intro extra
      exact parse?_iff_encoded.mpr
        ⟨octets, rest ++ extra, by rw [List.append_assoc], encoding, size⟩

end Element

end ByteListing.Der
