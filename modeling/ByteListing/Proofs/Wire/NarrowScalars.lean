import ByteListing.Proofs.Wire.Scalars

/-! # Numbers of 32 bits in varints

A varint has room for 64 bits, but a parser of a kind with 32 bits keeps the low ones only
(`IntegerForm.reading`), so that many varints stand for one number.  Plain numbers are shown as they
are read, whatever the upper bits are.  Numbers under zig-zag are unfolded with all of their bits,
so that they are shown as they are read only if the upper ones are zero; otherwise what is shown is
no number of the kind (`narrow_scalars_are_shown`). -/
set_option autoImplicit false
namespace ByteListing.Wire

open ByteListing.Schema (FieldType Kind MessageType Pool)

namespace Scalar

/-- The kinds with numbers of 32 bits in varints, and what they can hold. -/
inductive Narrow : Kind → IntegerForm → Prop
  | int32 : Narrow .int32 ⟨true, 32, .plain⟩
  | uint32 : Narrow .uint32 ⟨false, 32, .plain⟩
  | sint32 : Narrow .sint32 ⟨true, 32, .zigzag⟩
  | enumeration {fullName : String} : Narrow (.enumeration fullName) ⟨true, 32, .plain⟩

def IntegerForm.reading (form : IntegerForm) (low : Nat) : Int :=
  match form.coding with
  | .zigzag => if low % 2 = 0 then (low / 2 : Nat) else -(low / 2 : Nat) - 1
  | .plain | .fixed => if form.signed ∧ 2 ^ 31 ≤ low then (low : Int) - 2 ^ 32 else low

theorem signed_eq_reading (raw : Nat) :
    signed 32 raw = IntegerForm.reading ⟨true, 32, .plain⟩ (raw % 2 ^ 32) := by
  have modulus : ((Nat.pow 2 32 : Nat) : Int) = 2 ^ 32 := rfl
  simp only [signed, Int.bmod_def, IntegerForm.reading, true_and, modulus]
  split <;> split <;> omega

/-- A number is shown as it is read from its low 32 bits, which are enough to show it. -/
structure ShownByLowBits (kind : Kind) (form : IntegerForm) (raw : Nat) : Prop where
  fits : form.Fits (form.reading (raw % 2 ^ 32))
  text : varintText (some kind) raw = toString (form.reading (raw % 2 ^ 32)) ++ form.suffix
  reduced : varintText (some kind) (raw % 2 ^ 32) = varintText (some kind) raw

section Narrow

variable {kind : Kind} {form : IntegerForm} (narrow : Narrow kind form)
include narrow

theorem reading_raw {number : Int} (fits : form.Fits number) :
    form.reading (form.raw number % 2 ^ 32) = number := by
  have low : (number % 2 ^ 64).toNat % 2 ^ 32 = (number % 2 ^ 32).toNat := by omega
  cases narrow with
  | int32 | enumeration =>
      have least : -2 ^ 31 ≤ number := fits.1
      have bound : number < 2 ^ 31 := fits.2
      simp only [IntegerForm.reading, IntegerForm.raw, low, true_and]
      split <;> omega
  | uint32 =>
      have least : 0 ≤ number := fits.1
      have bound : number < 2 ^ 32 := fits.2
      simp only [IntegerForm.reading, IntegerForm.raw, low, Bool.false_eq_true, false_and, if_false]
      omega
  | sint32 =>
      have least : -2 ^ 31 ≤ number := fits.1
      have bound : number < 2 ^ 31 := fits.2
      simp only [IntegerForm.reading, IntegerForm.raw, Varint.fold]
      split <;> split <;> omega

theorem fits_reading (raw : Nat) : form.Fits (form.reading (raw % 2 ^ 32)) := by
  have low : raw % 2 ^ 32 < 2 ^ 32 := Nat.mod_lt _ (by decide)
  cases narrow with
  | int32 | enumeration =>
      simp only [IntegerForm.Fits, IntegerForm.reading, true_and, if_true]
      split <;> omega
  | uint32 =>
      simp only [IntegerForm.Fits, IntegerForm.reading, Bool.false_eq_true, false_and, if_false]
      omega
  | sint32 =>
      simp only [IntegerForm.Fits, IntegerForm.reading, if_true]
      split <;> omega

theorem text_eq_reading {raw : Nat} (lowOnly : form.coding = .zigzag → raw < 2 ^ 32) :
    varintText (some kind) raw = toString (form.reading (raw % 2 ^ 32)) ++ form.suffix := by
  cases narrow with
  | int32 | enumeration =>
      exact (congrArg toString (signed_eq_reading raw)).trans String.append_empty.symm
  | uint32 => exact String.append_empty.symm
  | sint32 =>
      have value : raw % 2 ^ 32 = raw := Nat.mod_eq_of_lt (lowOnly rfl)
      rw [value]
      rfl

/-- Numbers under zig-zag are not cut down to the kind. -/
theorem text_ne_of_large {raw : Nat} (zigzag : form.coding = .zigzag) (large : 2 ^ 32 ≤ raw)
    {number : Int} (fits : form.Fits number) :
    varintText (some kind) raw ≠ toString number ++ form.suffix := by
  cases narrow with
  | sint32 =>
      intro same
      have least : -2 ^ 31 ≤ number := fits.1
      have bound : number < 2 ^ 31 := fits.2
      have value : Varint.unfold raw = number :=
        toString_int_inj ((String.append_left_inj _).mp same)
      rw [Varint.unfold] at value
      split at value <;> omega
  | int32 | uint32 | enumeration => cases zigzag

theorem shownByLowBits {raw : Nat} (lowOnly : form.coding = .zigzag → raw < 2 ^ 32) :
    ShownByLowBits kind form raw := by
  have low : raw % 2 ^ 32 < 2 ^ 32 := Nat.mod_lt _ (by decide)
  have text := text_eq_reading narrow lowOnly
  have lowText := text_eq_reading narrow fun _ => low
  rw [Nat.mod_mod] at lowText
  exact ⟨fits_reading narrow raw, text, lowText.trans text.symm⟩

theorem packedText?_varints {items : List (Nat × Bytes)}
    (written : ∀ item ∈ items, Varint.Octets item.1 item.2) :
    packedText? kind (items.flatMap Prod.snd) =
      some (" ".intercalate (items.map fun item => varintText (some kind) item.1)) := by
  have numbers : Varint.sequence? (items.flatMap Prod.snd) = some (items.map Prod.fst) :=
    Carrier.numbers?_flatMap .varint items fun item member => .varint (written item member)
  have texts : packedTexts? kind (items.flatMap Prod.snd) =
      (Varint.sequence? (items.flatMap Prod.snd)).map (·.map (varintText (some kind))) := by
    cases narrow <;> rfl
  rw [packedText?, texts, numbers, Option.map_some, Option.map_some, List.map_map]
  rfl

end Narrow

end Scalar

/-- Of a varint the low 32 bits are enough to comment it. -/
theorem annotation_mod (pool : Pool) (declared : Option FieldType) (raw : Nat) :
    annotation pool declared (.varint (raw % 2 ^ 32)) = annotation pool declared (.varint raw) := by
  have sameBits : BitVec.ofNat 32 (raw % 2 ^ 32) = BitVec.ofNat 32 raw :=
    BitVec.eq_of_toNat_eq (by simp)
  cases declared with
  | none => rfl
  | some declared => simp only [valueName?, annotation, sameBits]

theorem lines_entryOf_varints (pool : Pool) (maxDepth level : Nat)
    (inner : (level : Nat) → Option MessageType → Bytes → List Entry) {declared : FieldType}
    (number : Nat) {form : Scalar.IntegerForm} (narrow : Scalar.Narrow declared.kind form)
    (repeated : declared.repeated = true) {items : List (Nat × Bytes)} (occupied : items ≠ [])
    (written : ∀ item ∈ items, Varint.Octets item.1 item.2) :
    (entryOf pool maxDepth level inner (some declared)
        ⟨number, .lengthDelimited (items.flatMap Prod.snd)⟩).lines =
      [⟨level, Entry.lengthHead number (items.flatMap Prod.snd).length ++ " \x7b" ++
        " ".intercalate (items.map fun item => Scalar.varintText (some declared.kind) item.1) ++
        "\x7d" ++ ("  # " ++ declared.name)⟩] := by
  have payloadOccupied : items.flatMap Prod.snd ≠ [] := by
    obtain ⟨first, member⟩ := List.exists_mem_of_ne_nil items occupied
    intro nothing
    exact (written first member).terminated.ne_nil
      (List.flatMap_eq_nil_iff.mp nothing first member)
  have shown := payloadForm_packed pool (level < maxDepth) repeated payloadOccupied
    (Scalar.packedText?_varints narrow written)
  simp only [entryOf, shown, Entry.lines, fieldComment]

/-- Fields of kinds with 32 bits are listed by one line with the text of their numbers and the
comment for the low bits, from which a number is read as it was written.  A plain number is shown
as it is read, whatever the other bits are, and so is one under zig-zag if they are zero; then
numbers are shown alike exactly if they are read alike.  Under zig-zag other numbers are shown as no
number of the kind. -/
theorem narrow_scalars_are_shown (pool : Pool) (maxDepth level : Nat)
    (whole : Option MessageType) {before : List Field} {front : Bytes}
    (read : Field.Sequence before front) {number : Nat} {declared : FieldType}
    (known : declaredInside pool whole (openAfter [] before) number = some declared)
    {form : Scalar.IntegerForm} (narrow : Scalar.Narrow declared.kind form) :
    (∀ raw octets, (Field.mk number (.varint raw)).Octets octets →
      ListedBehind pool maxDepth level whole front octets
        ⟨level + (openAfter [] before).length,
          Entry.head number .varint ++ " " ++ Scalar.varintText (some declared.kind) raw ++
            annotation pool (some declared) (.varint (raw % 2 ^ 32))⟩) ∧
    (declared.repeated = true → ∀ (items : List (Nat × Bytes)) (octets : Bytes), items ≠ [] →
      (∀ item ∈ items, Varint.Octets item.1 item.2) →
      (Field.mk number (.lengthDelimited (items.flatMap Prod.snd))).Octets octets →
      ListedBehind pool maxDepth level whole front octets
        ⟨level + (openAfter [] before).length,
          Entry.lengthHead number (items.flatMap Prod.snd).length ++ " \x7b" ++
            " ".intercalate (items.map fun item =>
              Scalar.varintText (some declared.kind) item.1) ++ "\x7d" ++
            ("  # " ++ declared.name)⟩) ∧
    (∀ value, form.Fits value → form.reading (form.raw value % 2 ^ 32) = value) ∧
    (∀ raw, (form.coding = .zigzag → raw < 2 ^ 32) →
      Scalar.ShownByLowBits declared.kind form raw) ∧
    (∀ raw other, (form.coding = .zigzag → raw < 2 ^ 32) →
      (form.coding = .zigzag → other < 2 ^ 32) →
      (Scalar.varintText (some declared.kind) raw = Scalar.varintText (some declared.kind) other ↔
        form.reading (raw % 2 ^ 32) = form.reading (other % 2 ^ 32))) ∧
    ∀ raw, form.coding = .zigzag → 2 ^ 32 ≤ raw → ∀ value, form.Fits value →
      Scalar.varintText (some declared.kind) raw ≠ toString value ++ form.suffix := by
  refine ⟨?_, ?_, ?_, ?_, ?_, ?_⟩
  · intro raw octets written
    apply listedBehind pool maxDepth level whole read written
    rw [known, annotation_mod, annotation_eq]
    rfl
  · intro repeated items octets occupied itemsWritten written
    apply listedBehind pool maxDepth level whole read written
    rw [known, lines_entryOf_varints _ _ _ _ _ narrow repeated occupied itemsWritten]
    rfl
  · intro value fits
    exact Scalar.reading_raw narrow fits
  · intro raw lowOnly
    exact Scalar.shownByLowBits narrow lowOnly
  · intro raw other lowOnly otherLowOnly
    rw [Scalar.text_eq_reading narrow lowOnly, Scalar.text_eq_reading narrow otherLowOnly]
    constructor
    · intro same
      exact toString_int_inj ((String.append_left_inj _).mp same)
    · intro same
      rw [same]
  · intro raw zigzag large value fits
    exact Scalar.text_ne_of_large narrow zigzag large fits

def offsetType : MessageType := ⟨"Offset", "Offset", [⟨"offset", 1, .sint32, false⟩], []⟩

/-- In a group, a value of an enumeration in two varints of different lengths, and there the numbers
of packed offsets. -/
theorem narrow_scalars_are_shown_in_group :
    ListedBehind palettePool 64 0 (some pictureType) [0x0B]
      [0x18, 0xFF, 0xFF, 0xFF, 0xFF, 0x0F] ⟨1, "3:VARINT -1  # colour = NONE"⟩ ∧
    ListedBehind palettePool 64 0 (some pictureType) [0x0B]
      [0x18, 0xFF, 0xFF, 0xFF, 0xFF, 0xFF, 0xFF, 0xFF, 0xFF, 0xFF, 0x01]
      ⟨1, "3:VARINT -1  # colour = NONE"⟩ ∧
    ListedBehind palettePool 64 0 (some pictureType) [0x0B] [0x12, 0x03, 0x01, 0x80, 0x01]
      ⟨1, "2:LEN 3 \x7b-1z 64z\x7d  # offsets"⟩ ∧
    Scalar.ShownByLowBits (.enumeration "Colour") ⟨true, 32, .plain⟩ (2 ^ 64 - 1) := by
  have start : Field.Octets ⟨1, .startGroup⟩ ([0x0B] ++ []) :=
    .intro (by decide) (by decide) ⟨.last rfl, by decide, by decide⟩ .startGroup
  have read : Field.Sequence [⟨1, .startGroup⟩] [0x0B] := .cons start .nil
  have colour : declaredInside palettePool (some pictureType) (openAfter [] [⟨1, .startGroup⟩]) 3 =
      some ⟨"colour", 3, .enumeration "Colour", false⟩ := by decide
  have offsets : declaredInside palettePool (some pictureType) (openAfter [] [⟨1, .startGroup⟩]) 2 =
      some ⟨"offsets", 2, .sint32, true⟩ := by decide
  obtain ⟨line, -, -, lowBits, -, -⟩ :=
    narrow_scalars_are_shown palettePool 64 0 (some pictureType) read colour .enumeration
  obtain ⟨-, packed, -, -, -, -⟩ :=
    narrow_scalars_are_shown palettePool 64 0 (some pictureType) read offsets .sint32
  -- The same value without the octets of its sign, and with them.
  have shortEnds : Base128.splitGroups 10 [0xFF, 0xFF, 0xFF, 0xFF, 0x0F] =
      some ([0xFF, 0xFF, 0xFF, 0xFF, 0x0F], []) := by decide
  have longEnds : Base128.splitGroups 10
      [0xFF, 0xFF, 0xFF, 0xFF, 0xFF, 0xFF, 0xFF, 0xFF, 0xFF, 0x01] =
        some ([0xFF, 0xFF, 0xFF, 0xFF, 0xFF, 0xFF, 0xFF, 0xFF, 0xFF, 0x01], []) := by decide
  obtain ⟨-, shortTerminated, shortSize⟩ := Base128.splitGroups_iff.mp shortEnds
  obtain ⟨-, longTerminated, longSize⟩ := Base128.splitGroups_iff.mp longEnds
  have tag : Base128.Terminated [0x18] := .last rfl
  refine ⟨?_, ?_, ?_, lowBits _ nofun⟩
  · have shown := line (2 ^ 32 - 1) _ (.intro (by decide) (by decide)
      ⟨tag, by decide, by decide⟩ (.varint ⟨shortTerminated, shortSize, by decide⟩))
    have text : Entry.head 3 .varint ++ " " ++
        Scalar.varintText (some (.enumeration "Colour")) (2 ^ 32 - 1) ++
        annotation palettePool (some ⟨"colour", 3, .enumeration "Colour", false⟩)
          (.varint ((2 ^ 32 - 1) % 2 ^ 32)) = "3:VARINT -1  # colour = NONE" := by decide +kernel
    rw [← text]
    exact shown
  · have shown := line (2 ^ 64 - 1) _ (.intro (by decide) (by decide)
      ⟨tag, by decide, by decide⟩ (.varint ⟨longTerminated, longSize, by decide⟩))
    have text : Entry.head 3 .varint ++ " " ++
        Scalar.varintText (some (.enumeration "Colour")) (2 ^ 64 - 1) ++
        annotation palettePool (some ⟨"colour", 3, .enumeration "Colour", false⟩)
          (.varint ((2 ^ 64 - 1) % 2 ^ 32)) = "3:VARINT -1  # colour = NONE" := by decide +kernel
    rw [← text]
    exact shown
  · have written : ∀ item ∈ [(1, [0x01]), (128, [0x80, 0x01])], Varint.Octets item.1 item.2 := by
      refine List.forall_mem_cons.mpr ⟨?_, List.forall_mem_singleton.mpr ?_⟩
      · exact ⟨.last rfl, by decide, by decide⟩
      · exact ⟨.more rfl (.last rfl), by decide, by decide⟩
    have shown := packed rfl [(1, [0x01]), (128, [0x80, 0x01])]
      ([0x12] ++ ([0x03] ++ [0x01, 0x80, 0x01])) nofun written
      (.intro (by decide) (by decide) ⟨.last rfl, by decide, by decide⟩
        (.lengthDelimited ⟨.last rfl, by decide, by decide⟩))
    have text : Entry.lengthHead 2 3 ++ " \x7b" ++ " ".intercalate ["-1z", "64z"] ++ "\x7d" ++
        ("  # " ++ "offsets") =
          "2:LEN 3 \x7b-1z 64z\x7d  # offsets" := by
      decide +kernel
    rw [← text]
    exact shown

/-- A number under zig-zag with an upper bit is shown as a number of more than 32 bits, and not as
the number of its low bits. -/
theorem offset_with_upper_bit :
    Varint.sequence? [0x80, 0x80, 0x80, 0x80, 0x10] = some [2 ^ 32] ∧
    render {} palettePool (some offsetType) [0x08, 0x80, 0x80, 0x80, 0x80, 0x10] =
      "1:VARINT 2147483648z  # offset\n" ∧
    render {} palettePool (some offsetType) [0x08, 0x00] = "1:VARINT 0z  # offset\n" ∧
    ¬ (Scalar.IntegerForm.mk true 32 .zigzag).Fits 2147483648 := by
  decide +kernel

end ByteListing.Wire
