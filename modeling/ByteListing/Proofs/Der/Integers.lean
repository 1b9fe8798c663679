import Mathlib.Algebra.Group.Int.Defs
import ByteListing.Proofs.Bytes.Chunks
import ByteListing.Proofs.Der.Expansions

/-! # Integers and their values

`twosComplement` is the value of octets of any number, and `integerText` the text that an integer
has by its value: in decimal if 64 bits hold it, and otherwise the digits of its octets.  The
listing goes by the number of octets.  Up to eight octets are shown in decimal, and more of them as
octets of no known type are.  So the two texts differ for longer bodies of a small value, and for
longer bodies that are all printable characters, which are quoted, and nowhere else
(`integers_shown_by_value`). -/
set_option autoImplicit false
namespace ByteListing.Der

/-- The number in octets of which the first one has the sign. -/
def twosComplement : Bytes → Int
  | [] => 0
  | first :: rest =>
    (if 128 ≤ first.toNat then (first.toNat : Int) - 256 else first.toNat) * 256 ^ rest.length +
      Bytes.bigEndian rest

def HeldIn64 (value : Int) : Prop := -2 ^ 63 ≤ value ∧ value < 2 ^ 63

instance (value : Int) : Decidable (HeldIn64 value) := inferInstanceAs (Decidable (_ ∧ _))

/-- An integer in decimal if 64 bits hold it, and otherwise the digits of its octets. -/
def integerText (body : Bytes) : String :=
  if HeldIn64 (twosComplement body) then toString (twosComplement body) else Hex.literal body

/-! ## Values -/

theorem foldl_octets (start : Nat) (octets : Bytes) :
    octets.foldl (fun value octet => value * 256 + octet.toNat) start =
      start * 256 ^ octets.length + Bytes.bigEndian octets := by
  induction octets generalizing start with
  | nil => simp [Bytes.bigEndian]
  | cons octet rest inductionHypothesis =>
      have value : Bytes.bigEndian (octet :: rest) =
          rest.foldl (fun value octet => value * 256 + octet.toNat) (0 * 256 + octet.toNat) := rfl
      rw [value, List.foldl_cons, inductionHypothesis, inductionHypothesis, Nat.zero_mul,
        Nat.zero_add, Nat.add_mul, List.length_cons, Nat.pow_succ', Nat.mul_assoc, Nat.add_assoc]

theorem bigEndian_cons (first : UInt8) (rest : Bytes) :
    Bytes.bigEndian (first :: rest) = first.toNat * 256 ^ rest.length + Bytes.bigEndian rest := by
  have value := foldl_octets first.toNat rest
  rw [← value, Bytes.bigEndian, List.foldl_cons, Nat.zero_mul, Nat.zero_add]

theorem twosComplement_cons_cases (first : UInt8) (rest : Bytes) :
    (128 * 256 ^ rest.length ≤ Bytes.bigEndian (first :: rest) ∧
      twosComplement (first :: rest) =
        Bytes.bigEndian (first :: rest) - (256 * 256 ^ rest.length : Nat)) ∨
    (Bytes.bigEndian (first :: rest) < 128 * 256 ^ rest.length ∧
      twosComplement (first :: rest) = Bytes.bigEndian (first :: rest)) := by
  have restBound := Bytes.bigEndian_lt rest
  have weight : ((256 ^ rest.length : Nat) : Int) = 256 ^ rest.length := Int.natCast_pow 256 _
  rw [twosComplement, bigEndian_cons, ← weight, Int.natCast_add, Int.natCast_mul, Int.natCast_mul]
  by_cases negative : 128 ≤ first.toNat
  · refine .inl ⟨?_, ?_⟩
    · exact Nat.le_add_right_of_le (Nat.mul_le_mul_right _ negative)
    · rw [if_pos negative, Int.sub_mul]
      omega
  · refine .inr ⟨?_, ?_⟩
    · have atMost : first.toNat * 256 ^ rest.length ≤ 127 * 256 ^ rest.length :=
        Nat.mul_le_mul_right _ (by omega)
      omega
    · rw [if_neg negative]

theorem Body.integer_eq (body : Bytes) : integer body = twosComplement body := by
  cases body with
  | nil => rfl
  | cons first rest =>
      have bound := Bytes.bigEndian_lt (first :: rest)
      have modulus : Nat.pow 2 (8 * (first :: rest).length) = 256 * 256 ^ rest.length := by
        rw [Nat.pow_eq, Nat.pow_mul, List.length_cons, Nat.pow_succ']
      rw [List.length_cons, Nat.pow_succ'] at bound
      rw [integer, signed, modulus, Int.bmod_def, Int.emod_eq_of_lt (by omega) (by omega)]
      rcases twosComplement_cons_cases first rest with ⟨large, value⟩ | ⟨small, value⟩
      · rw [if_neg (by omega), value]
      · rw [if_pos (by omega), value]

theorem heldIn64_of_short {body : Bytes} (short : body.length ≤ 8) :
    HeldIn64 (twosComplement body) := by
  cases body with
  | nil => decide
  | cons first rest =>
      have bound := Bytes.bigEndian_lt (first :: rest)
      have weight : 256 ^ rest.length ≤ 256 ^ 7 :=
        Nat.pow_le_pow_right (by decide) (Nat.le_of_succ_le_succ short)
      rw [List.length_cons, Nat.pow_succ'] at bound
      unfold HeldIn64
      rcases twosComplement_cons_cases first rest with ⟨large, value⟩ | ⟨small, value⟩
      · omega
      · omega

/-! ## Texts -/

theorem decimal_eq_integerText_iff (body : Bytes) :
    Manner.decimal.text body = integerText body ↔
      ¬ (8 < body.length ∧ (HeldIn64 (twosComplement body) ∨ Legible.isAscii body = true)) := by
  rw [Manner.text, integerText, Body.integer_eq]
  by_cases short : body.length ≤ 8
  · rw [if_pos short, if_pos (heldIn64_of_short short)]
    exact ⟨fun _ long => absurd short (Nat.not_le.mpr long.1), fun _ => rfl⟩
  · have long := Nat.not_le.mp short
    rw [if_neg short]
    by_cases held : HeldIn64 (twosComplement body)
    · rw [if_pos held]
      exact ⟨fun same => absurd same (Manner.literal_ne_decimal body _),
        fun notHeld => absurd ⟨long, .inl held⟩ notHeld⟩
    · rw [if_neg held, Body.literal]
      by_cases legible : Legible.isAscii body = true
      · rw [if_pos legible]
        exact ⟨fun same => absurd same (Quoted.ofBytes_ne_literal body body),
          fun notLegible => absurd ⟨long, .inr legible⟩ notLegible⟩
      · rw [if_neg legible]
        exact ⟨fun _ exception => exception.2.elim held legible, fun _ => rfl⟩

theorem Body.ofElement_integer (layout : Layout) (mayNest : Bool) {element : Element} {number : Nat}
    (tag : element.tag = ⟨.universal, false, number⟩) (integer : number = 2 ∨ number = 10)
    (occupied : element.body ≠ []) :
    ofElement layout mayNest element = .inline (Manner.decimal.text element.body) none := by
  rw [ofElement_eq layout mayNest occupied, tag]
  rcases integer with rfl | rfl <;> rfl

/-- Every integer and every value of an enumeration that a listing shows has a line with one text
between the braces.  This is the text by its value, except where more than eight octets hold a small
value or are all printable characters. -/
theorem integers_shown_by_value (layout : Layout) {data source : Bytes} {level left : Nat}
    {element : Element} {number : Nat}
    (shown : Shown layout layout.maxDepth data level left source element)
    (tag : element.tag = ⟨.universal, false, number⟩) (integer : number = 2 ∨ number = 10)
    (occupied : element.body ≠ []) :
    entryWith layout (inner? layout left) element =
      .inline element.head (Manner.decimal.text element.body) none ∧
    ⟨level, element.head ++ " \x7b " ++ Manner.decimal.text element.body ++ " \x7d"⟩ ∈
      listing layout data ∧
    (Manner.decimal.text element.body = integerText element.body ↔
      ¬ (8 < element.body.length ∧
        (HeldIn64 (twosComplement element.body) ∨ Legible.isAscii element.body = true))) := by
  have entry : entryWith layout (inner? layout left) element =
      .inline element.head (Manner.decimal.text element.body) none := by
    rw [entryWith, Body.ofElement_integer layout _ tag integer occupied]
  have within : Entry.Within level
      (.inline element.head (Manner.decimal.text element.body) none)
      (entries layout layout.maxDepth data) :=
    (within_iff (by rintro remaining ⟨⟩)).mpr ⟨left, source, element, shown, entry⟩
  have lines := within.lines_infix 0
  rw [Nat.zero_add, Entry.lines, Entry.commentPart, String.append_empty] at lines
  exact ⟨entry, lines.subset List.mem_cons_self, decimal_eq_integerText_iff element.body⟩

theorem integers_shown_by_value_in_sequence :
    (⟨1, "INTEGER \x7b -129 \x7d"⟩ : Line) ∈ listing {} [0x30, 0x04, 0x02, 0x02, 0xFF, 0x7F] ∧
      integerText [0xFF, 0x7F] = "-129" := by
  have outer : Element.parse? [0x30, 0x04, 0x02, 0x02, 0xFF, 0x7F] =
      some ⟨⟨.universal, true, 16⟩, false, [0x02, 0x02, 0xFF, 0x7F], 6⟩ := by decide +kernel
  have inner : Element.parse? [0x02, 0x02, 0xFF, 0x7F] =
      some ⟨⟨.universal, false, 2⟩, false, [0xFF, 0x7F], 4⟩ := by decide +kernel
  have nothing : Element.parseAll [] = ([], []) := by
    rw [Element.parseAll]
    rfl
  have within := @Shown.outside {} 63 [] _ _ _ nothing inner
  have shown := @Shown.inside {} _ _ _ [] _ _ _ _ _ _ _ nothing outer rfl within
  obtain ⟨-, listed, byValue⟩ := integers_shown_by_value {} shown rfl (.inl rfl)
    (List.cons_ne_nil _ _)
  have text : integerText [0xFF, 0x7F] = "-129" := by decide +kernel
  rw [byValue.mpr (by decide), text] at listed
  exact ⟨listed, text⟩

/-- Nine letters are too much for 64 bits and are quoted all the same, and nine octets of the
number 5 are not shown in decimal. -/
theorem integer_of_nine_octets :
    render {} ([0x02, 0x09] ++ List.replicate 9 0x41) = "INTEGER \x7b \"AAAAAAAAA\" \x7d\n" ∧
    integerText (List.replicate 9 0x41) = "`414141414141414141`" ∧
    render {} ([0x02, 0x09] ++ (List.replicate 8 0x00 ++ [0x05])) =
      "INTEGER \x7b `000000000000000005` \x7d\n" ∧
    integerText (List.replicate 8 0x00 ++ [0x05]) = "5" := by
  decide +kernel

end ByteListing.Der
