import Mathlib.Algebra.Group.Int.Defs
import ByteListing.Proofs.Bytes.Chunks
import ByteListing.Proofs.Wire.Annotation
import ByteListing.Proofs.Wire.FieldFormat
import ByteListing.Proofs.Wire.Places

/-! # The values of scalar fields

A scalar value is a number of an integer kind, a truth value, or the bits of a floating-point
number.  `Scalar.Value` has the values of each kind, and says how each is written and shown.  An
integer kind is told by its width, by its sign and by its coding; a plain number is extended to 64
bits in two's complement, whatever the width of its kind.

The octets of a value hold one number (`raw`), and three carriers bring it into a field.  What a
declared kind makes of that number is the value again (`Value.text_raw`), and what a carrier makes
of many values in a row are the numbers of all of them (`Carrier.numbers?_flatMap`), so that the
values of a packed field are shown as they are in fields of their own. -/
set_option autoImplicit false
namespace ByteListing.Wire

open ByteListing.Schema (FieldType Kind MessageType Pool)

namespace Varint

def fold (number : Int) : Nat :=
  if 0 ≤ number then (2 * number).toNat else (-2 * number - 1).toNat

theorem unfold_fold (number : Int) : unfold (fold number) = number := by
  unfold unfold fold
  by_cases positive : 0 ≤ number
  · rw [if_pos positive]
    split <;> omega
  · rw [if_neg positive]
    split <;> omega

theorem fold_lt {number : Int} (least : -2 ^ 63 ≤ number) (bound : number < 2 ^ 63) :
    fold number < 2 ^ 64 := by
  unfold fold
  split <;> omega

theorem sequence?_append {value : Nat} {octets : Bytes} (written : Octets value octets)
    (rest : Bytes) : sequence? (octets ++ rest) = (sequence? rest).map (value :: ·) := by
  have positive := written.length_pos
  have inside := Bytes.bounds_append positive rest
  rw [sequence?, Bytes.isEmpty_append positive, decode?_append written]
  simp only [Bool.false_eq_true, if_false, dif_pos inside, List.drop_left]

end Varint

namespace Scalar

theorem fixedValues?_append {size : Nat} (positive : 0 < size) {octets : Bytes}
    (length : octets.length = size) (rest : Bytes) :
    fixedValues? size (octets ++ rest) =
      (fixedValues? size rest).map (octets.littleEndian :: ·) := by
  have remainders : (octets ++ rest).length % size = rest.length % size := by
    rw [List.length_append, length, Nat.add_mod_left]
  rw [fixedValues?, fixedValues?, remainders, Bytes.chunks_append positive length]
  by_cases whole : rest.length % size = 0 <;> simp [whole]

/-! ## What numbers are carried in -/

inductive Carrier where
  | varint
  | fixed32
  | fixed64

namespace Carrier

def value : Carrier → Nat → FieldValue
  | varint => .varint
  | fixed32 => .fixed32
  | fixed64 => .fixed64

def text : Carrier → Option Kind → Nat → String
  | varint => varintText
  | fixed32 => fixed32Text
  | fixed64 => fixed64Text

def numbers? : Carrier → Bytes → Option (List Nat)
  | varint => Varint.sequence?
  | fixed32 => fixedValues? 4
  | fixed64 => fixedValues? 8

theorem octets_ne_nil {carrier : Carrier} {number : Nat} {octets : Bytes}
    (written : (carrier.value number).Octets octets) : octets ≠ [] := by
  cases carrier with
  | varint =>
      cases written with
      | varint varintWritten => exact varintWritten.terminated.ne_nil
  | fixed32 =>
      cases written with
      | fixed32 size => exact List.ne_nil_of_length_eq_add_one size
  | fixed64 =>
      cases written with
      | fixed64 size => exact List.ne_nil_of_length_eq_add_one size

theorem numbers?_append {carrier : Carrier} {number : Nat} {octets : Bytes}
    (written : (carrier.value number).Octets octets) (rest : Bytes) :
    carrier.numbers? (octets ++ rest) = (carrier.numbers? rest).map (number :: ·) := by
  cases carrier with
  | varint =>
      cases written with
      | varint varintWritten => exact Varint.sequence?_append varintWritten rest
  | fixed32 =>
      cases written with
      | fixed32 size => exact fixedValues?_append (by decide) size rest
  | fixed64 =>
      cases written with
      | fixed64 size => exact fixedValues?_append (by decide) size rest

theorem numbers?_flatMap {Item : Type} (carrier : Carrier) {number : Item → Nat}
    {octets : Item → Bytes} (items : List Item)
    (written : ∀ item ∈ items, (carrier.value (number item)).Octets (octets item)) :
    carrier.numbers? (items.flatMap octets) = some (items.map number) := by
  induction items with
  | nil =>
      cases carrier with
      | varint =>
          rw [List.flatMap_nil, numbers?, Varint.sequence?]
          rfl
      | fixed32 =>
          rw [List.flatMap_nil, numbers?, fixedValues?, Bytes.chunks]
          rfl
      | fixed64 =>
          rw [List.flatMap_nil, numbers?, fixedValues?, Bytes.chunks]
          rfl
  | cons item rest inductionHypothesis =>
      have later := inductionHypothesis fun found member =>
        written found (List.mem_cons_of_mem _ member)
      rw [List.flatMap_cons, numbers?_append (written item (List.mem_cons_self ..)), later]
      rfl

end Carrier

def carrierOf : Kind → Carrier
  | .fixed32 | .sfixed32 | .float => .fixed32
  | .fixed64 | .sfixed64 | .double => .fixed64
  | _ => .varint

/-! ## Values -/

inductive Coding where
  | plain
  | zigzag
  | fixed

structure IntegerForm where
  signed : Bool
  width : Nat
  coding : Coding

def integerForm? : Kind → Option IntegerForm
  | .int32 | .enumeration _ => some ⟨true, 32, .plain⟩
  | .int64 => some ⟨true, 64, .plain⟩
  | .uint32 => some ⟨false, 32, .plain⟩
  | .uint64 => some ⟨false, 64, .plain⟩
  | .sint32 => some ⟨true, 32, .zigzag⟩
  | .sint64 => some ⟨true, 64, .zigzag⟩
  | .fixed32 => some ⟨false, 32, .fixed⟩
  | .fixed64 => some ⟨false, 64, .fixed⟩
  | .sfixed32 => some ⟨true, 32, .fixed⟩
  | .sfixed64 => some ⟨true, 64, .fixed⟩
  | _ => none

namespace IntegerForm

/-- The numbers of the width, in two's complement if they are signed. -/
def Fits (form : IntegerForm) (number : Int) : Prop :=
  (if form.signed then -2 ^ (form.width - 1) else 0) ≤ number ∧
    number < (if form.signed then 2 ^ (form.width - 1) else 2 ^ form.width)

instance (form : IntegerForm) (number : Int) : Decidable (form.Fits number) :=
  inferInstanceAs (Decidable (_ ∧ _))

/-- The number that stands for a number of the kind. -/
def raw (form : IntegerForm) (number : Int) : Nat :=
  match form.coding with
  | .plain => (number % 2 ^ 64).toNat
  | .zigzag => Varint.fold number
  | .fixed => (number % 2 ^ form.width).toNat

def suffix (form : IntegerForm) : String :=
  match form.coding with
  | .plain => ""
  | .zigzag => "z"
  | .fixed => "i" ++ toString form.width

end IntegerForm

inductive Value : Kind → Type
  | integer {kind : Kind} {form : IntegerForm} (known : integerForm? kind = some form)
      (number : Int) (fits : form.Fits number) : Value kind
  | truth (holds : Bool) : Value .bool
  | single (bits : UInt32) : Value .float
  | double (bits : UInt64) : Value .double

namespace Value

variable {kind : Kind}

def raw : Value kind → Nat
  | @integer _ form _ number _ => form.raw number
  | truth holds => holds.toNat
  | single bits => bits.toNat
  | double bits => bits.toNat

def written (value : Value kind) : FieldValue :=
  (carrierOf kind).value value.raw

/-- A number in decimal with the suffix of its form, `true` or `false`, or a floating-point
number in the fewest digits that read back. -/
def text : Value kind → String
  | @integer _ form _ number _ => toString number ++ form.suffix
  | truth holds => toString holds
  | single bits => Decimal.floatText .single bits.toNat
  | double bits => Decimal.floatText .double bits.toNat

end Value

/-! ## The texts of values -/

/-- A number is read back from two's complement by its width, however many bits it was extended
to. -/
theorem signed_emod (width wide : Nat) {number : Int} (positive : 0 < width)
    (narrower : width ≤ wide) (least : -2 ^ (width - 1) ≤ number)
    (bound : number < 2 ^ (width - 1)) : signed width (number % 2 ^ wide).toNat = number := by
  have whole : ((number % 2 ^ wide).toNat : Int) = number % 2 ^ wide :=
    Int.toNat_of_nonneg (Int.emod_nonneg _ (Int.pow_ne_zero (by decide)))
  have modulus : ((Nat.pow 2 width : Nat) : Int) = 2 ^ width := by
    rw [Nat.pow_eq, Int.natCast_pow]
    rfl
  have divides : (2 : Int) ^ width ∣ 2 ^ wide := by
    rw [← Nat.add_sub_cancel' narrower, Int.pow_add]
    exact Int.dvd_mul_right ..
  have half : (2 : Int) ^ width = 2 * 2 ^ (width - 1) := by
    rw [← Int.pow_succ', Nat.sub_add_cancel positive]
  rw [signed, whole, ← Int.emod_bmod, modulus, Int.emod_emod_of_dvd number divides, ← modulus,
    Int.emod_bmod]
  apply Int.bmod_eq_of_le
  · omega
  · omega

theorem toString_emod {modulus number : Int} (least : 0 ≤ number) (bound : number < modulus) :
    toString (number % modulus).toNat = toString number := by
  rw [Int.emod_eq_of_lt least bound]
  obtain ⟨value, rfl⟩ := Int.eq_ofNat_of_zero_le least
  rfl

theorem text_integer {kind : Kind} {form : IntegerForm} (known : integerForm? kind = some form)
    {number : Int} (fits : form.Fits number) :
    (carrierOf kind).text (some kind) (form.raw number) = toString number ++ form.suffix := by
  cases kind with
  | int32 | enumeration =>
      cases known
      have same := signed_emod 32 64 (by decide) (by decide) fits.1 fits.2
      exact (congrArg toString same).trans String.append_empty.symm
  | int64 =>
      cases known
      have same := signed_emod 64 64 (by decide) (by decide) fits.1 fits.2
      exact (congrArg toString same).trans String.append_empty.symm
  | sfixed32 =>
      cases known
      have same := signed_emod 32 32 (by decide) (by decide) fits.1 fits.2
      exact congrArg (toString · ++ "i32") same
  | sfixed64 =>
      cases known
      have same := signed_emod 64 64 (by decide) (by decide) fits.1 fits.2
      exact congrArg (toString · ++ "i64") same
  | uint32 =>
      cases known
      have bound : number < 2 ^ 32 := fits.2
      have same : (number % 2 ^ 64).toNat % 2 ^ 32 = (number % 2 ^ 32).toNat := by omega
      exact (congrArg toString same).trans ((toString_emod fits.1 bound).trans
        String.append_empty.symm)
  | uint64 =>
      cases known
      exact (toString_emod fits.1 fits.2).trans String.append_empty.symm
  | fixed32 =>
      cases known
      exact congrArg (· ++ "i32") (toString_emod fits.1 fits.2)
  | fixed64 =>
      cases known
      exact congrArg (· ++ "i64") (toString_emod fits.1 fits.2)
  | sint32 | sint64 =>
      cases known
      exact congrArg (toString · ++ "z") (Varint.unfold_fold number)
  | double | float | bool | string | message | bytes => cases known

theorem Value.text_raw {kind : Kind} (value : Value kind) :
    (carrierOf kind).text (some kind) value.raw = value.text := by
  cases value with
  | integer known number fits => exact text_integer known fits
  | truth holds => cases holds <;> rfl
  | single bits => rfl
  | double bits => rfl

theorem Value.inRange {kind : Kind} (value : Value kind) : value.written.InRange := by
  cases value with
  | @integer _ form known number fits =>
      cases kind with
      | int32 | int64 | uint32 | uint64 | enumeration =>
          cases known
          have bound : (number % 2 ^ 64).toNat < 2 ^ 64 := by omega
          exact bound
      | sint32 =>
          cases known
          have least : -2 ^ 31 ≤ number := fits.1
          have bound : number < 2 ^ 31 := fits.2
          exact Varint.fold_lt (by omega) (by omega)
      | sint64 =>
          cases known
          exact Varint.fold_lt fits.1 fits.2
      | fixed32 | sfixed32 =>
          cases known
          have bound : (number % 2 ^ 32).toNat < 2 ^ 32 := by omega
          exact bound
      | fixed64 | sfixed64 =>
          cases known
          have bound : (number % 2 ^ 64).toNat < 2 ^ 64 := by omega
          exact bound
      | double | float | bool | string | message | bytes => cases known
  | truth holds =>
      have bound : holds.toNat < 2 ^ 64 := Nat.lt_of_le_of_lt holds.toNat_le (by decide)
      exact bound
  | single bits => exact bits.toNat_lt
  | double bits => exact bits.toNat_lt

/-! ## Payloads of many values -/

structure Encoded (kind : Kind) where
  value : Value kind
  octets : Bytes
  written : value.written.Octets octets

theorem packedTexts?_eq {kind : Kind} (value : Value kind) (payload : Bytes) :
    packedTexts? kind payload = ((carrierOf kind).numbers? payload).map fun numbers =>
      numbers.map ((carrierOf kind).text (some kind)) := by
  cases value with
  | integer known => cases kind <;> first | rfl | cases known
  | truth => rfl
  | single => rfl
  | double => rfl

/-- Values that were written one behind the other are shown with the text of each. -/
theorem packedText?_flatMap {kind : Kind} {items : List (Encoded kind)} (occupied : items ≠ []) :
    packedText? kind (items.flatMap Encoded.octets) =
      some (" ".intercalate (items.map fun item => item.value.text)) := by
  obtain ⟨first, -⟩ := List.exists_mem_of_ne_nil items occupied
  have numbers := Carrier.numbers?_flatMap (carrierOf kind) items fun item _ => item.written
  have texts : (items.map fun item => item.value.raw).map ((carrierOf kind).text (some kind)) =
      items.map fun item => item.value.text := by
    rw [List.map_map]
    exact List.map_congr_left fun item _ => item.value.text_raw
  rw [packedText?, packedTexts?_eq first.value, numbers, Option.map_some, texts, Option.map_some]

theorem flatMap_octets_ne_nil {kind : Kind} {items : List (Encoded kind)} (occupied : items ≠ []) :
    items.flatMap Encoded.octets ≠ [] := by
  obtain ⟨first, member⟩ := List.exists_mem_of_ne_nil items occupied
  intro nothing
  exact Carrier.octets_ne_nil first.written (List.flatMap_eq_nil_iff.mp nothing first member)

end Scalar

/-! ## Lines -/

theorem payloadForm_packed (pool : Pool) (mayNest : Bool) {declared : FieldType} {payload : Bytes}
    {text : String} (repeated : declared.repeated = true) (occupied : payload ≠ [])
    (packed : Scalar.packedText? declared.kind payload = some text) :
    payloadForm pool mayNest (some declared) payload = .inline text := by
  obtain ⟨name, number, kind, several⟩ := declared
  obtain rfl : several = true := repeated
  rw [payloadForm, if_neg (by rwa [List.isEmpty_iff])]
  cases kind with
  | message fullName => cases packed
  | string => cases packed
  | _ => simp only [declaredForm, packed, if_true]

section Entry

variable (pool : Pool) (maxDepth level : Nat)
  (inner : (level : Nat) → Option MessageType → Bytes → List Entry) (declared : FieldType)
  (number : Nat)

theorem lines_entryOf_value (value : Scalar.Value declared.kind) :
    (entryOf pool maxDepth level inner (some declared) ⟨number, value.written⟩).lines =
      [⟨level, Entry.head number value.written.wireType ++ " " ++ value.text ++
        annotation pool (some declared) value.written⟩] := by
  rw [← value.text_raw, Scalar.Value.written, annotation_eq]
  cases Scalar.carrierOf declared.kind with
  | varint => rfl
  | fixed32 => rfl
  | fixed64 => rfl

theorem lines_entryOf_packed (repeated : declared.repeated = true)
    {items : List (Scalar.Encoded declared.kind)} (occupied : items ≠ []) :
    (entryOf pool maxDepth level inner (some declared)
        ⟨number, .lengthDelimited (items.flatMap Scalar.Encoded.octets)⟩).lines =
      [⟨level, Entry.lengthHead number (items.flatMap Scalar.Encoded.octets).length ++ " \x7b" ++
        " ".intercalate (items.map fun item => item.value.text) ++ "\x7d" ++
        ("  # " ++ declared.name)⟩] := by
  have shown := payloadForm_packed pool (level < maxDepth) repeated
    (Scalar.flatMap_octets_ne_nil occupied) (Scalar.packedText?_flatMap occupied)
  simp only [entryOf, shown, Entry.lines, fieldComment]

theorem depthInside_value (opened : List Nat) (value : Scalar.Value declared.kind) :
    depthInside opened ⟨number, value.written⟩ = opened.length := by
  rw [Scalar.Value.written]
  cases Scalar.carrierOf declared.kind with
  | varint => rfl
  | fixed32 => rfl
  | fixed64 => rfl

end Entry

/-- Every scalar value can be written, and a declared field that holds it is listed by one line,
which shows the value.  A repeated field that holds the octets of many values is listed by one line
with their length and the text that each value has in a field of its own.  This holds in a whole
message and in every block, inside whatever groups are open, and whatever follows. -/
theorem scalars_are_shown (pool : Pool) (maxDepth level : Nat) (whole : Option MessageType)
    {before : List Field} {front : Bytes} (read : Field.Sequence before front)
    {number : Nat} {declared : FieldType}
    (known : declaredInside pool whole (openAfter [] before) number = some declared) :
    (∀ value : Scalar.Value declared.kind, (∃ octets, value.written.Octets octets) ∧
      ∀ octets, (Field.mk number value.written).Octets octets →
        ListedBehind pool maxDepth level whole front octets
          ⟨level + (openAfter [] before).length,
            Entry.head number value.written.wireType ++ " " ++ value.text ++
              annotation pool (some declared) value.written⟩) ∧
    (declared.repeated = true →
      ∀ (items : List (Scalar.Encoded declared.kind)) (octets : Bytes), items ≠ [] →
        (Field.mk number (.lengthDelimited (items.flatMap Scalar.Encoded.octets))).Octets octets →
        ListedBehind pool maxDepth level whole front octets
          ⟨level + (openAfter [] before).length,
            Entry.lengthHead number (items.flatMap Scalar.Encoded.octets).length ++ " \x7b" ++
              " ".intercalate (items.map fun item => item.value.text) ++ "\x7d" ++
              ("  # " ++ declared.name)⟩) := by
  constructor
  · intro value
    refine ⟨FieldValue.exists_octets value.inRange, ?_⟩
    intro octets written
    apply listedBehind pool maxDepth level whole read written
    rw [known, depthInside_value, lines_entryOf_value]
  · intro repeated items octets occupied written
    apply listedBehind pool maxDepth level whole read written
    rw [known, lines_entryOf_packed _ _ _ _ _ _ repeated occupied]
    rfl

def palettePool : Pool where
  messages := [⟨"Palette", "Palette",
    [⟨"offsets", 2, .sint32, true⟩, ⟨"colour", 3, .enumeration "Colour", false⟩], []⟩]
  enums := [⟨"Colour", [("NONE", -1)]⟩]

def pictureType : MessageType :=
  ⟨"Picture", "Picture", [⟨"palette", 1, .message "Palette", false⟩], []⟩

/-- A negative value of an enumeration in a group, and there two packed offsets, of which the first
has a group more than it needs. -/
theorem colour_and_offsets_in_group :
    ListedBehind palettePool 64 0 (some pictureType) [0x0B]
      [0x18, 0xFF, 0xFF, 0xFF, 0xFF, 0xFF, 0xFF, 0xFF, 0xFF, 0xFF, 0x01]
      ⟨1, "3:VARINT -1  # colour = NONE"⟩ ∧
    ListedBehind palettePool 64 0 (some pictureType) [0x0B] [0x12, 0x04, 0x81, 0x00, 0x80, 0x01]
      ⟨1, "2:LEN 4 \x7b-1z 64z\x7d  # offsets"⟩ := by
  have start : Field.Octets ⟨1, .startGroup⟩ ([0x0B] ++ []) :=
    .intro (by decide) (by decide) ⟨.last rfl, by decide, by decide⟩ .startGroup
  have read : Field.Sequence [⟨1, .startGroup⟩] [0x0B] := .cons start .nil
  constructor
  · have known : declaredInside palettePool (some pictureType) (openAfter [] [⟨1, .startGroup⟩]) 3 =
        some ⟨"colour", 3, .enumeration "Colour", false⟩ := by decide
    have ends : Base128.splitGroups 10
        [0xFF, 0xFF, 0xFF, 0xFF, 0xFF, 0xFF, 0xFF, 0xFF, 0xFF, 0x01] =
          some ([0xFF, 0xFF, 0xFF, 0xFF, 0xFF, 0xFF, 0xFF, 0xFF, 0xFF, 0x01], []) := by decide
    obtain ⟨-, terminated, short⟩ := Base128.splitGroups_iff.mp ends
    have shown := ((scalars_are_shown palettePool 64 0 (some pictureType) read known).1
      (.integer rfl (-1) (by decide))).2 _
      (.intro (by decide) (by decide)
        ⟨(.last rfl : Base128.Terminated [0x18]), by decide, by decide⟩
        (.varint ⟨terminated, short, by decide⟩))
    have text : Entry.head 3 .varint ++ " " ++ (toString (-1 : Int) ++ "") ++
        annotation palettePool (some ⟨"colour", 3, .enumeration "Colour", false⟩)
          (.varint (2 ^ 64 - 1)) = "3:VARINT -1  # colour = NONE" := by decide +kernel
    rw [← text]
    exact shown
  · have known : declaredInside palettePool (some pictureType) (openAfter [] [⟨1, .startGroup⟩]) 2 =
        some ⟨"offsets", 2, .sint32, true⟩ := by decide
    let first : Scalar.Encoded .sint32 :=
      ⟨.integer rfl (-1) (by decide), [0x81, 0x00],
        .varint ⟨.more rfl (.last rfl), by decide, by decide⟩⟩
    let second : Scalar.Encoded .sint32 :=
      ⟨.integer rfl 64 (by decide), [0x80, 0x01],
        .varint ⟨.more rfl (.last rfl), by decide, by decide⟩⟩
    have shown := (scalars_are_shown palettePool 64 0 (some pictureType) read known).2 rfl
      [first, second] ([0x12] ++ ([0x04] ++ [0x81, 0x00, 0x80, 0x01])) nofun
      (.intro (by decide) (by decide) ⟨.last rfl, by decide, by decide⟩
        (.lengthDelimited ⟨.last rfl, by decide, by decide⟩))
    have text : Entry.lengthHead 2 4 ++ " \x7b" ++ " ".intercalate ["-1z", "64z"] ++ "\x7d" ++
        ("  # " ++ "offsets") = "2:LEN 4 \x7b-1z 64z\x7d  # offsets" := by
      decide +kernel
    rw [← text]
    exact shown

end ByteListing.Wire
