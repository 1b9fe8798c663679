import ByteListing.Proofs.Text.Writer
import ByteListing.Proofs.Wire.Places

/-! # The depth limit of listings of fields

Payloads that are shown as blocks stand in at most as many of each other as the limit, since each
block is opened at a level below the limit and all in it is deeper (`Within.bounds`).  Groups indent
without regard to the limit.  The limit decides nothing else: a listing without a line at the limit
or deeper is the listing for every higher limit (`payloadEntries_of_shallow`).

`writeFields` writes a listing line by line.  One level serves blocks and groups alike: it is raised
and lowered around blocks, raised where a group starts and lowered where it ends, and set back
behind the last field, where groups may still be open.  It is the sum of the level around the fields
and of the groups that are open (`writeField_eq_some`), so behind a block it is what it was
before. -/
set_option autoImplicit false
namespace ByteListing.Wire

open ByteListing.Listing (Writer remainderLines)
open ByteListing.Schema (FieldType MessageType Pool)

/-! ## Entries in blocks -/

namespace Entry

inductive Within : (blocks : Nat) → Entry → List Entry → Prop
  | here {entry : Entry} {entries : List Entry} : entry ∈ entries → Within 0 entry entries
  | inside {blocks level number length : Nat} {entry : Entry} {comment : String}
      {inner entries : List Entry} : .block level number length comment inner ∈ entries →
      Within blocks entry inner → Within (blocks + 1) entry entries

def level : Entry → Nat
  | scalar level .. | payload level .. | block level .. | groupStart level .. | groupEnd level ..
  | remainder level .. => level

/-- The lines of an entry without those of the entries in it. -/
def ownLines : Entry → List Line
  | block level number length comment _ =>
    [⟨level, lengthHead number length ++ " \x7b" ++ comment⟩, ⟨level, "\x7d"⟩]
  | entry => entry.lines

theorem Within.mono {blocks : Nat} {entry : Entry} {entries others : List Entry}
    (within : Within blocks entry entries) (subset : entries ⊆ others) :
    Within blocks entry others := by
  cases within with
  | here member => exact .here (subset member)
  | inside member deeper => exact .inside (subset member) deeper

mutual

theorem exists_within_of_mem_lines {entry : Entry} {line : Line} (member : line ∈ entry.lines) :
    ∃ blocks owner, Within blocks owner [entry] ∧ line ∈ owner.ownLines := by
  match entry with
  | .scalar .. | .payload .. | .groupStart .. | .groupEnd .. | .remainder .. =>
      exact ⟨0, _, .here List.mem_cons_self, member⟩
  | .block level number length comment inner =>
      rw [lines, List.mem_cons, List.mem_append] at member
      rcases member with rfl | inInner | inBrace
      · exact ⟨0, _, .here List.mem_cons_self, List.mem_cons_self⟩
      · obtain ⟨blocks, owner, within, own⟩ := exists_within_of_mem_linesOf inInner
        exact ⟨blocks + 1, owner, .inside List.mem_cons_self within, own⟩
      · exact ⟨0, _, .here List.mem_cons_self, List.mem_cons_of_mem _ inBrace⟩

theorem exists_within_of_mem_linesOf {entries : List Entry} {line : Line}
    (member : line ∈ linesOf entries) :
    ∃ blocks owner, Within blocks owner entries ∧ line ∈ owner.ownLines := by
  match entries with
  | [] => cases member
  | entry :: rest =>
      rw [linesOf, List.mem_append] at member
      rcases member with inEntry | inRest
      · obtain ⟨blocks, owner, within, own⟩ := exists_within_of_mem_lines inEntry
        exact ⟨blocks, owner, within.mono (by simp), own⟩
      · obtain ⟨blocks, owner, within, own⟩ := exists_within_of_mem_linesOf inRest
        exact ⟨blocks, owner, within.mono (List.subset_cons_self ..), own⟩

end

theorem mem_linesOf_of_mem {entry : Entry} {entries : List Entry} (listed : entry ∈ entries)
    {line : Line} (member : line ∈ entry.lines) : line ∈ linesOf entries := by
  obtain ⟨before, after, rfl⟩ := List.append_of_mem listed
  rw [linesOf_append, linesOf]
  exact List.mem_append_right _ (List.mem_append_left _ member)

theorem ownLines_subset (entry : Entry) : entry.ownLines ⊆ entry.lines := by
  cases entry with
  | block level number length comment inner => simp [ownLines, lines]
  | _ => exact List.Subset.refl _

theorem Within.mem_linesOf {blocks : Nat} {entry : Entry} {entries : List Entry}
    (within : Within blocks entry entries) {line : Line} (own : line ∈ entry.ownLines) :
    line ∈ linesOf entries := by
  induction within with
  | here listed => exact mem_linesOf_of_mem listed (ownLines_subset _ own)
  | inside listed _ inductionHypothesis =>
      refine mem_linesOf_of_mem listed ?_
      rw [lines]
      exact List.mem_cons_of_mem _ (List.mem_append_left _ (inductionHypothesis own))

theorem mem_linesOf_iff {entries : List Entry} {line : Line} :
    line ∈ linesOf entries ↔
      ∃ blocks entry, Within blocks entry entries ∧ line ∈ entry.ownLines :=
  ⟨exists_within_of_mem_linesOf, fun ⟨_, _, within, own⟩ => within.mem_linesOf own⟩

theorem exists_line (entry : Entry) : ∃ text, ⟨entry.level, text⟩ ∈ entry.lines := by
  cases entry with
  | block level number length comment inner => exact ⟨_, List.mem_cons_self⟩
  | _ => exact ⟨_, List.mem_singleton_self _⟩

end Entry

/-! ## Levels and the limit -/

section Fields

variable {pool : Pool} {maxDepth level : Nat}
  {inner : (level : Nat) → Option MessageType → Bytes → List Entry}

theorem level_entryOf (declared : Option FieldType) (field : Field) :
    (entryOf pool maxDepth level inner declared field).level = level := by
  obtain ⟨number, value⟩ := field
  cases value with
  | lengthDelimited payload =>
      simp only [entryOf]
      split <;> rfl
  | _ => rfl

theorem block_of_entryOf {declared : Option FieldType} {field : Field}
    {found number length : Nat} {comment : String} {listed : List Entry}
    (opened : entryOf pool maxDepth level inner declared field =
      .block found number length comment listed) :
    found = level ∧ level < maxDepth ∧ ∃ message payload, listed = inner level message payload := by
  obtain ⟨ownNumber, value⟩ := field
  cases value with
  | lengthDelimited payload =>
      simp only [entryOf] at opened
      split at opened
      · cases opened
      · rename_i message shown
        cases opened
        exact ⟨rfl, of_decide_eq_true (nests_of_payloadForm shown).allowed, message, payload, rfl⟩
  | _ => cases opened

end Fields

section Blocks

variable {pool : Pool} {maxDepth base : Nat} {message : Option MessageType} {data : Bytes}

theorem exists_field_of_mem_entriesOf
    {inner : (level : Nat) → Option MessageType → Bytes → List Entry}
    {whole : Option MessageType} (opened : List Nat) {fields : List Field} {entry : Entry}
    (listed : entry ∈ entriesOf pool maxDepth base inner whole (scopesInside pool whole opened)
      fields) :
    ∃ level declared field, base ≤ level ∧
      entry = entryOf pool maxDepth level inner declared field := by
  induction fields generalizing opened with
  | nil => cases listed
  | cons field rest inductionHypothesis =>
      rw [entriesOf_cons, List.mem_cons] at listed
      rcases listed with rfl | inRest
      · exact ⟨_, _, field, Nat.le_add_right base _, rfl⟩
      · exact inductionHypothesis _ inRest

theorem le_level_of_mem_entries {entry : Entry}
    (listed : entry ∈ entries pool maxDepth base message data) : base ≤ entry.level := by
  rw [entries_eq, List.mem_append] at listed
  rcases listed with inFields | inEnding
  · obtain ⟨level, declared, field, deep, rfl⟩ :=
      exists_field_of_mem_entriesOf [] inFields
    rwa [level_entryOf]
  · rw [ending] at inEnding
    split at inEnding
    · cases inEnding
    · obtain rfl := List.mem_singleton.mp inEnding
      exact Nat.le_add_right base _

theorem exists_payload_of_block_mem {level number length : Nat} {comment : String}
    {inner : List Entry}
    (listed : .block level number length comment inner ∈ entries pool maxDepth base message data) :
    base ≤ level ∧ level < maxDepth ∧
      ∃ other payload, inner = entries pool maxDepth (level + 1) other payload := by
  have deep : base ≤ level := le_level_of_mem_entries listed
  rw [entries_eq, List.mem_append] at listed
  rcases listed with inFields | inEnding
  · obtain ⟨_, declared, field, -, same⟩ := exists_field_of_mem_entriesOf [] inFields
    obtain ⟨rfl, below, other, payload, rfl⟩ := block_of_entryOf same.symm
    refine ⟨deep, below, other, payload, ?_⟩
    rw [payloadEntries, dif_pos ⟨deep, below⟩]
  · rw [ending] at inEnding
    split at inEnding
    · cases inEnding
    · cases List.mem_singleton.mp inEnding

/-- Each block around an entry takes at least one level, and one below the limit. -/
theorem Entry.Within.bounds {blocks : Nat} {entry : Entry}
    (within : Within blocks entry (entries pool maxDepth base message data)) :
    base + blocks ≤ entry.level ∧ (0 < blocks → base + blocks ≤ maxDepth) := by
  generalize all : entries pool maxDepth base message data = listed at within
  induction within generalizing base message data with
  | here member =>
      subst all
      exact ⟨le_level_of_mem_entries member, fun positive => absurd positive (Nat.lt_irrefl 0)⟩
  | inside member _ inductionHypothesis =>
      subst all
      obtain ⟨deep, below, other, payload, rfl⟩ := exists_payload_of_block_mem member
      obtain ⟨inLevel, inLimit⟩ := inductionHypothesis rfl
      exact ⟨by omega, fun _ => by omega⟩

theorem Entry.Within.level_lt {blocks level number length : Nat} {comment : String}
    {inner : List Entry}
    (within : Within blocks (.block level number length comment inner)
      (entries pool maxDepth base message data)) : level < maxDepth := by
  generalize all : entries pool maxDepth base message data = listed at within
  generalize opened : Entry.block level number length comment inner = entry at within
  induction within generalizing base message data with
  | here member =>
      subst all opened
      exact (exists_payload_of_block_mem member).2.1
  | inside member _ inductionHypothesis =>
      subst all
      obtain ⟨-, -, other, payload, rfl⟩ := exists_payload_of_block_mem member
      exact inductionHypothesis rfl opened

end Blocks

theorem ListedBehind.mem {pool : Pool} {maxDepth level : Nat} {whole : Option MessageType}
    {front octets : Bytes} {line : Line}
    (behind : ListedBehind pool maxDepth level whole front octets line) :
    line ∈ Entry.linesOf (entries pool maxDepth level whole (front ++ octets)) := by
  rw [behind.alone]
  exact List.mem_append_right _ List.mem_cons_self

theorem length_openAfter_starts (number count : Nat) (outer : List Nat) :
    (openAfter outer (List.replicate count ⟨number, .startGroup⟩)).length =
      outer.length + count := by
  induction count generalizing outer with
  | zero => rfl
  | succ count inductionHypothesis =>
      have later := inductionHypothesis (number :: outer)
      rw [List.length_cons] at later
      rw [List.replicate_succ, openAfter_cons]
      exact later.trans (by omega)

/-- Groups indent however deep they are: the lines of a listing may stand at every level. -/
theorem exists_line_at_level (layout : Layout) (pool : Pool) (message : Option MessageType)
    (level : Nat) : ∃ data, ∃ line ∈ listing layout pool message data, line.level = level := by
  have written : Field.Octets ⟨1, .startGroup⟩ [0x0B] := Field.parse_eq_iff_octets.mp rfl
  have starts (count : Nat) : Field.Sequence (List.replicate count ⟨1, .startGroup⟩)
      (List.replicate count 0x0B) := by
    induction count with
    | zero => exact .nil
    | succ count inductionHypothesis => exact .cons written inductionHypothesis
  have deep : 0 + depthInside (openAfter [] (List.replicate level ⟨1, .startGroup⟩))
      ⟨1, .startGroup⟩ = level :=
    (Nat.zero_add _).trans ((length_openAfter_starts 1 level []).trans (Nat.zero_add level))
  have behind := listedBehind pool layout.maxDepth 0 message (starts level) written rfl
  exact ⟨_, _, behind.mem, deep⟩

/-! ## Higher limits -/

section Higher

variable {pool : Pool} {limit higher base : Nat} (le : limit ≤ higher)
include le

section Deeper

variable (deeper : ∀ level message payload, level < limit →
  (∀ line ∈ Entry.linesOf (payloadEntries pool limit base level message payload),
    line.level < limit) →
  payloadEntries pool higher base level message payload =
    payloadEntries pool limit base level message payload)
include deeper

theorem entryOf_of_shallow {level : Nat} {declared : Option FieldType} {field : Field}
    (shallow : ∀ line ∈ (entryOf pool limit level (payloadEntries pool limit base) declared
      field).lines, line.level < limit) :
    entryOf pool higher level (payloadEntries pool higher base) declared field =
      entryOf pool limit level (payloadEntries pool limit base) declared field := by
  have below : level < limit := by
    obtain ⟨text, first⟩ :=
      (entryOf pool limit level (payloadEntries pool limit base) declared field).exists_line
    have bound := shallow _ first
    rwa [level_entryOf] at bound
  have belowHigher : level < higher := Nat.lt_of_lt_of_le below le
  obtain ⟨number, value⟩ := field
  cases value with
  | lengthDelimited payload =>
      simp only [entryOf, below, belowHigher, decide_true] at shallow ⊢
      cases shown : payloadForm pool true declared payload with
      | inline text => rfl
      | nested message =>
          rw [shown] at shallow
          have same := deeper level message payload below fun line member => by
            refine shallow line ?_
            rw [Entry.lines]
            exact List.mem_cons_of_mem _ (List.mem_append_left _ member)
          simp only [same]
  | _ => rfl

theorem entriesOf_of_shallow {whole : Option MessageType} (opened : List Nat)
    {fields : List Field}
    (shallow : ∀ line ∈ Entry.linesOf (entriesOf pool limit base (payloadEntries pool limit base)
      whole (scopesInside pool whole opened) fields), line.level < limit) :
    entriesOf pool higher base (payloadEntries pool higher base) whole
        (scopesInside pool whole opened) fields =
      entriesOf pool limit base (payloadEntries pool limit base) whole
        (scopesInside pool whole opened) fields := by
  induction fields generalizing opened with
  | nil => rfl
  | cons field rest inductionHypothesis =>
      rw [entriesOf_cons, Entry.linesOf, List.forall_mem_append] at shallow
      rw [entriesOf_cons, entriesOf_cons, entryOf_of_shallow le deeper shallow.1,
        inductionHypothesis _ shallow.2]

theorem entries_of_shallow {message : Option MessageType} {data : Bytes}
    (shallow : ∀ line ∈ Entry.linesOf (entries pool limit base message data), line.level < limit) :
    entries pool higher base message data = entries pool limit base message data := by
  rw [entries_eq, Entry.linesOf_append, List.forall_mem_append] at shallow
  have same := entriesOf_of_shallow le deeper [] shallow.1
  rw [scopesInside] at same
  rw [entries_eq, entries_eq, same]

end Deeper

end Higher

/-- With no line at the limit or deeper, there is nothing that a higher limit could show
otherwise. -/
theorem payloadEntries_of_shallow {pool : Pool} {limit higher : Nat} (le : limit ≤ higher)
    (base level : Nat) (message : Option MessageType) (payload : Bytes) (below : level < limit)
    (shallow : ∀ line ∈ Entry.linesOf (payloadEntries pool limit base level message payload),
      line.level < limit) :
    payloadEntries pool higher base level message payload =
      payloadEntries pool limit base level message payload := by
  by_cases deep : base ≤ level
  · have belowHigher : level < higher := Nat.lt_of_lt_of_le below le
    rw [payloadEntries, dif_pos ⟨deep, below⟩] at shallow
    rw [payloadEntries, payloadEntries, dif_pos ⟨deep, belowHigher⟩, dif_pos ⟨deep, below⟩]
    exact entries_of_shallow le (payloadEntries_of_shallow le (level + 1)) shallow
  · rw [payloadEntries, payloadEntries, dif_neg fun both => deep both.1,
      dif_neg fun both => deep both.1]
termination_by limit - base
decreasing_by omega

theorem listing_of_shallow (layout : Layout) (pool : Pool) (message : Option MessageType)
    {limit higher : Nat} {data : Bytes} (le : limit ≤ higher)
    (shallow : ∀ line ∈ listing { layout with maxDepth := limit } pool message data,
      line.level < limit) :
    listing { layout with maxDepth := higher } pool message data =
      listing { layout with maxDepth := limit } pool message data :=
  congrArg Entry.linesOf (entries_of_shallow le (payloadEntries_of_shallow le 0) shallow)

/-! ## Writing with one level -/

/-- Writes the payload of a field at the level at hand.  `deeper` writes the fields of a block. -/
def writePayload (pool : Pool) (maxDepth : Nat)
    (deeper : Option MessageType → Bytes → Writer → Option Writer) (declared : Option FieldType)
    (number : Nat) (payload : Bytes) (writer : Writer) : Option Writer :=
  let head := Entry.lengthHead number payload.length ++ " \x7b"
  match payloadForm pool (writer.level < maxDepth) declared payload with
  | .inline text => some (writer.write (head ++ text ++ "\x7d" ++ fieldComment declared))
  | .nested message => writer.block (head ++ fieldComment declared) (deeper message payload)

/-- Writes a field and keeps the open groups: the start of a group raises the level behind it, and
the end of the innermost one lowers the level before it. -/
def writeField (pool : Pool) (maxDepth : Nat)
    (deeper : Option MessageType → Bytes → Writer → Option Writer) (whole : Option MessageType)
    (state : Writer × Scopes) (field : Field) : Option (Writer × Scopes) :=
  let (writer, scopes) := state
  let declared := (scopes.message whole).bind (·.field? field.number)
  let comment := fieldComment declared
  let kind := declared.map FieldType.kind
  let scalar (text comment : String) : Option (Writer × Scopes) :=
    some (writer.write (Entry.head field.number field.value.wireType ++ " " ++ text ++ comment),
      scopes)
  match field.value with
  | .varint value =>
    scalar (Scalar.varintText kind value) (comment ++ valueComment pool declared value)
  | .fixed64 value => scalar (Scalar.fixed64Text kind value) comment
  | .fixed32 value => scalar (Scalar.fixed32Text kind value) comment
  | .lengthDelimited payload =>
    (writePayload pool maxDepth deeper declared field.number payload writer).map (·, scopes)
  | .startGroup =>
    some ((writer.write (Entry.head field.number .startGroup ++ comment)).indent,
      (field.number, messageOf? pool declared) :: scopes)
  | .endGroup =>
    let text := Entry.head field.number .endGroup
    match scopes with
    | (innermost, message) :: outer =>
      if innermost = field.number then some (writer.dedent.write text, outer)
      else some (writer.write text, (innermost, message) :: outer)
    | [] => some (writer.write text, [])

def writeFieldsWith (pool : Pool) (maxDepth : Nat)
    (deeper : Option MessageType → Bytes → Writer → Option Writer) (message : Option MessageType)
    (data : Bytes) (writer : Writer) : Option Writer :=
  let (fields, remaining) := Field.parseAll data
  ((fields.map Prod.fst).foldlM (writeField pool maxDepth deeper message) (writer, [])).map
    fun (written, _) =>
      let ended := if remaining.isEmpty then written else written.write (Hex.literal remaining)
      { ended with level := writer.level }

/-- Writes the fields of a message, with as many calls inside one another as there are `frames` for.
There is no result if that is not enough. -/
def writeFields (pool : Pool) (maxDepth : Nat) :
    (frames : Nat) → Option MessageType → Bytes → Writer → Option Writer
  | 0 => writeFieldsWith pool maxDepth fun _ _ _ => none
  | frames + 1 => writeFieldsWith pool maxDepth (writeFields pool maxDepth frames)

section Writing

variable {pool : Pool} {maxDepth : Nat}
  {deeper : Option MessageType → Bytes → Writer → Option Writer}

/-- A writer of blocks adds the lines of a message at its level, if that is within the limit. -/
def Lists (pool : Pool) (maxDepth : Nat)
    (deeper : Option MessageType → Bytes → Writer → Option Writer) (base : Nat) : Prop :=
  ∀ (message : Option MessageType) (payload : Bytes) (opened : Writer),
    base < opened.level → opened.level ≤ maxDepth →
    deeper message payload opened =
      some (opened.append (Entry.linesOf (entries pool maxDepth opened.level message payload)))

theorem writePayload_eq_some {base : Nat} (lists : Lists pool maxDepth deeper base)
    (declared : Option FieldType) (number : Nat) (payload : Bytes) (writer : Writer)
    (deep : base ≤ writer.level) :
    writePayload pool maxDepth deeper declared number payload writer =
      some (writer.append (entryOf pool maxDepth writer.level (payloadEntries pool maxDepth base)
        declared ⟨number, .lengthDelimited payload⟩).lines) := by
  simp only [writePayload, entryOf]
  cases shown : payloadForm pool (writer.level < maxDepth) declared payload with
  | inline text => rfl
  | nested message =>
      have below : writer.level < maxDepth := of_decide_eq_true (nests_of_payloadForm shown).allowed
      simp only [payloadEntries, dif_pos (And.intro deep below), Entry.lines]
      exact writer.block_eq_some (lists message payload _ (Nat.lt_succ_of_le deep) below)

/-- The level is that around the fields and one more for every open group, before a field and behind
it. -/
theorem writeField_eq_some {base : Nat} (lists : Lists pool maxDepth deeper base)
    (whole : Option MessageType) (opened : List Nat) (field : Field) (lines : List Line) :
    writeField pool maxDepth deeper whole
        (⟨base + opened.length, lines⟩, scopesInside pool whole opened) field =
      some (⟨base + (openAfter opened [field]).length,
        lines ++ (entryOf pool maxDepth (base + depthInside opened field)
          (payloadEntries pool maxDepth base) (declaredInside pool whole opened field.number)
          field).lines⟩, scopesInside pool whole (openAfter opened [field])) := by
  obtain ⟨number, value⟩ := field
  cases value with
  | lengthDelimited payload =>
      have written := writePayload_eq_some lists (declaredInside pool whole opened number) number
        payload ⟨base + opened.length, lines⟩ (Nat.le_add_right ..)
      simp only [writeField, message_scopesInside]
      rw [declaredInside] at written
      rw [written]
      rfl
  | endGroup =>
      cases opened with
      | nil => rfl
      | cons innermost outer =>
          by_cases same : innermost = number
          · simp only [writeField, scopesInside, same, if_true, openAfter, depthInside]
            rfl
          · simp only [writeField, scopesInside, same, if_false, openAfter, depthInside]
            rfl
  | _ =>
      simp only [writeField, message_scopesInside]
      rfl

theorem foldlM_writeField_eq_some {base : Nat} (lists : Lists pool maxDepth deeper base)
    (whole : Option MessageType) (opened : List Nat) (fields : List Field) (lines : List Line) :
    fields.foldlM (writeField pool maxDepth deeper whole)
        (⟨base + opened.length, lines⟩, scopesInside pool whole opened) =
      some (⟨base + (openAfter opened fields).length,
        lines ++ Entry.linesOf (entriesOf pool maxDepth base (payloadEntries pool maxDepth base)
          whole (scopesInside pool whole opened) fields)⟩,
        scopesInside pool whole (openAfter opened fields)) := by
  induction fields generalizing opened lines with
  | nil =>
      rw [List.foldlM_nil, entriesOf, Entry.linesOf, List.append_nil]
      rfl
  | cons field rest inductionHypothesis =>
      rw [List.foldlM_cons, writeField_eq_some lists, Option.bind_eq_bind, Option.bind_some,
        inductionHypothesis, ← openAfter_cons, entriesOf_cons, Entry.linesOf, List.append_assoc]

theorem writeFieldsWith_eq_some {writer : Writer}
    (lists : Lists pool maxDepth deeper writer.level) (message : Option MessageType)
    (data : Bytes) :
    writeFieldsWith pool maxDepth deeper message data writer = some (writer.append
      (Entry.linesOf (entries pool maxDepth writer.level message data))) := by
  rw [writeFieldsWith, linesOf_entries, remainderLines]
  obtain ⟨fields, remaining⟩ := Field.parseAll data
  obtain ⟨base, lines⟩ := writer
  have written := foldlM_writeField_eq_some lists message [] (fields.map Prod.fst) lines
  simp only [scopesInside, List.length_nil, Nat.add_zero] at written
  simp only [written, Option.map_some]
  split
  · rw [List.append_nil]
    rfl
  · simp only [Writer.write, Writer.append, List.append_assoc]

/-- With a frame for every level up to the limit the whole message is written, and the level is what
it was before. -/
theorem writeFields_eq_some {frames : Nat} {writer : Writer}
    (enough : maxDepth ≤ writer.level + frames) (message : Option MessageType) (data : Bytes) :
    writeFields pool maxDepth frames message data writer = some (writer.append
      (Entry.linesOf (entries pool maxDepth writer.level message data))) := by
  induction frames generalizing message data writer with
  | zero =>
      refine writeFieldsWith_eq_some (fun _ _ opened deep within => ?_) message data
      omega
  | succ frames inductionHypothesis =>
      refine writeFieldsWith_eq_some (fun inner payload opened deep _ => ?_) message data
      exact inductionHypothesis (by omega) inner payload

/-- Behind a payload the groups that are open around it are still open, and the level is what it was
before. -/
theorem exists_writeField_payload {frames : Nat} (whole : Option MessageType) (writer : Writer)
    (scopes : Scopes) (number : Nat) (payload : Bytes)
    (enough : maxDepth ≤ writer.level + 1 + frames) :
    ∃ written, writeField pool maxDepth (writeFields pool maxDepth frames) whole (writer, scopes)
        ⟨number, .lengthDelimited payload⟩ = some (written, scopes) ∧
      written.level = writer.level := by
  have lists : Lists pool maxDepth (writeFields pool maxDepth frames) writer.level :=
    fun message inner opened deep _ => writeFields_eq_some (by omega) message inner
  have written := writePayload_eq_some lists ((scopes.message whole).bind (·.field? number)) number
    payload writer (Nat.le_refl _)
  exact ⟨_, congrArg (Option.map (·, scopes)) written, Writer.level_append ..⟩

end Writing

/-- Every line belongs to an entry that stands in as many blocks as the limit at most, and a block
is opened only below the limit, though groups indent as deep as they like.  A writer that counts
levels writes the listing, and for every payload it leaves the level as it was, whatever groups are
open.  If no line is at the limit or deeper, the text is the same for every higher limit. -/
theorem depth_limit_bounds_blocks (layout : Layout) (pool : Pool) (message : Option MessageType)
    (data : Bytes) :
    (∀ line, line ∈ listing layout pool message data ↔ ∃ blocks entry,
      Entry.Within blocks entry (entries pool layout.maxDepth 0 message data) ∧
      line ∈ entry.ownLines) ∧
    (∀ blocks entry, Entry.Within blocks entry (entries pool layout.maxDepth 0 message data) →
      blocks ≤ layout.maxDepth ∧ blocks ≤ entry.level) ∧
    (∀ blocks level number length comment inner,
      Entry.Within blocks (.block level number length comment inner)
        (entries pool layout.maxDepth 0 message data) → level < layout.maxDepth) ∧
    (∀ level, ∃ deep, ∃ line ∈ listing layout pool message deep, line.level = level) ∧
    writeFields pool layout.maxDepth layout.maxDepth message data ⟨0, []⟩ =
      some ⟨0, listing layout pool message data⟩ ∧
    (∀ frames whole (writer : Writer) scopes number payload,
      layout.maxDepth ≤ writer.level + 1 + frames →
      ∃ written, writeField pool layout.maxDepth (writeFields pool layout.maxDepth frames) whole
          (writer, scopes) ⟨number, .lengthDelimited payload⟩ = some (written, scopes) ∧
        written.level = writer.level) ∧
    ∀ limit higher, limit ≤ higher →
      (∀ line ∈ listing { layout with maxDepth := limit } pool message data, line.level < limit) →
      render { layout with maxDepth := higher } pool message data =
        render { layout with maxDepth := limit } pool message data := by
  refine ⟨fun line => Entry.mem_linesOf_iff, ?_, ?_,
    exists_line_at_level layout pool message, ?_, ?_, ?_⟩
  · intro blocks entry within
    obtain ⟨inLevel, inLimit⟩ := within.bounds
    omega
  · intro blocks level number length comment inner within
    exact within.level_lt
  · exact @writeFields_eq_some pool layout.maxDepth layout.maxDepth ⟨0, []⟩ (Nat.le_add_left ..)
      message data
  · intro frames whole writer scopes number payload enough
    exact exists_writeField_payload whole writer scopes number payload enough
  · intro limit higher le shallow
    rw [render, render, listing_of_shallow layout pool message le shallow]

/-- A group that is not ended, with a payload in which a group stands, and a number behind it. -/
def groupAroundPayload : Bytes := [0x0B, 0x12, 0x05, 0x1B, 0x08, 0x96, 0x01, 0x1C, 0x08, 0x01]

/-- The payload is a block with every limit from two on, its number stands at level three, and it is
shown alike with every limit from four on. -/
theorem blocks_of_group_around_payload :
    (∃ blocks entry, Entry.Within blocks entry (entries {} 2 0 none groupAroundPayload) ∧
      ⟨3, "1:VARINT 150"⟩ ∈ entry.ownLines ∧ blocks ≤ 2) ∧
    (∃ inner, Entry.Within 0 (.block 1 2 5 "" inner) (entries {} 2 0 none groupAroundPayload) ∧
      1 < 2) ∧
    (∃ written, writeField {} 2 (writeFields {} 2 0) none (⟨1, []⟩, [(1, none)])
        ⟨2, .lengthDelimited [0x1B, 0x08, 0x96, 0x01, 0x1C]⟩ = some (written, [(1, none)]) ∧
      written.level = 1) ∧
    (∀ line ∈ listing { maxDepth := 4 } {} none groupAroundPayload, line.level < 4) ∧
    render { maxDepth := 64 } {} none groupAroundPayload =
      render { maxDepth := 4 } {} none groupAroundPayload := by
  obtain ⟨lines, bounded, below, -, -, restored, higher⟩ :=
    depth_limit_bounds_blocks { maxDepth := 2 } {} none groupAroundPayload
  have shallow : ∀ line ∈ listing { maxDepth := 4 } {} none groupAroundPayload,
      line.level < 4 := by decide +kernel
  refine ⟨?_, ?_, restored 0 none ⟨1, []⟩ [(1, none)] 2 _ (by decide), shallow,
    higher 4 64 (by decide) shallow⟩
  · obtain ⟨blocks, entry, within, own⟩ := (lines ⟨3, "1:VARINT 150"⟩).mp (by decide +kernel)
    exact ⟨blocks, entry, within, own, (bounded blocks entry within).1⟩
  · have opens : (entries {} 2 0 none groupAroundPayload).any
        (fun | .block 1 2 5 "" _ => true | _ => false) = true := by decide +kernel
    obtain ⟨entry, listed, shown⟩ := List.any_eq_true.mp opens
    split at shown
    · have within := Entry.Within.here listed
      exact ⟨_, within, below _ _ _ _ _ _ within⟩
    · cases shown

end ByteListing.Wire
