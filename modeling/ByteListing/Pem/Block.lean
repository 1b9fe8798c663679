import ByteListing.Text.Base64
import ByteListing.Text.Cut
import ByteListing.Text.Utf8

/-! # PEM blocks

A block stands between a `BEGIN` line and an `END` line of the same label.  It starts with
headers, which end at the first line without a colon, and goes on with its contents in base 64.

A text is searched for blocks from the left.  Whatever stands around them is skipped, and so is
a `BEGIN` line that no well-formed block follows: the search goes on right behind its mark, so
that no broken block hides one that is well-formed. -/
set_option autoImplicit false
namespace ByteListing.Pem

structure Block where
  label : String
  headers : List (String × String)
  contents : Bytes
deriving Repr, DecidableEq

namespace Block

def header? (block : Block) (key : String) : Option String :=
  (block.headers.find? fun header => header.1 == key).map Prod.snd

def isEncrypted (block : Block) : Bool :=
  match block.header? "Proc-Type" with
  | none => false
  | some value => (cut? "ENCRYPTED".toList value.toList).isSome

end Block

def dashes : Bytes := Utf8.encode "-----".toList

def beginMark : Bytes := Utf8.encode "-----BEGIN ".toList

def endMark (label : Bytes) : Bytes := Utf8.encode "-----END ".toList ++ label ++ dashes

/-- What stands around the first mark that begins a line.  The line feed before the line does
not count to what is before it. -/
def cutAtLine? (mark data : Bytes) : Option (Bytes × Bytes) :=
  if mark.isPrefixOf data then some ([], data.drop mark.length) else cut? (0x0A :: mark) data

theorem length_behind_cutAtLine_le {mark data before behind : Bytes}
    (found : cutAtLine? mark data = some (before, behind)) :
    behind.length + mark.length ≤ data.length := by
  unfold cutAtLine? at found
  split at found
  · rename_i beginning
    have bound := (List.isPrefixOf_iff_prefix.mp beginning).length_le
    simp only [Option.some.injEq, Prod.mk.injEq] at found
    rw [← found.2, List.length_drop]
    omega
  · have bound := length_behind_le found
    simp only [List.length_cons] at bound
    omega

/-- The text of a header's key or value: ill-formed pieces are replaced and white space at the
ends is dropped. -/
def headerText (data : Bytes) : String :=
  String.ofList (Utf8.decodeLossy (trim Bytes.isBlank data))

/-- Reads headers up to the first line without a colon, which must be there. -/
def readHeaders? (data : Bytes) : Option (List (String × String) × Bytes) :=
  if _ : data ≠ [] then
    match cut? [0x3A] (Bytes.cutLine data).1 with
    | none => some ([], data)
    | some (key, value) =>
      (readHeaders? (Bytes.cutLine data).2).map fun (headers, rest) =>
        ((headerText key, headerText value) :: headers, rest)
  else
    none
termination_by data.length
decreasing_by exact Bytes.length_cutLine_lt ‹_›

theorem length_behind_headers_le {data rest : Bytes} {headers : List (String × String)}
    (found : readHeaders? data = some (headers, rest)) : rest.length ≤ data.length := by
  fun_induction readHeaders? data generalizing headers with
  | case1 data nonempty noColon => simp_all
  | case2 data nonempty key value colon inductionHypothesis =>
      obtain ⟨⟨inner, after⟩, innerFound, equal⟩ := Option.map_eq_some_iff.mp found
      simp only [Prod.mk.injEq] at equal
      have bound := inductionHypothesis (equal.2 ▸ innerFound)
      exact Nat.le_trans bound (Bytes.length_cutLine_le data)
  | case3 data empty => simp at found

def label? (line : Bytes) : Option Bytes := withoutEnding? dashes (trim Bytes.isBlank line)

def readLines? (label : Bytes) (lines : Bytes) : Option (Block × Bytes) := do
  let name ← Utf8.decode? label
  let (headers, rest) ← readHeaders? lines
  let (body, behind) ← cutAtLine? (endMark label) rest
  if (Bytes.cutLine behind).1.all Bytes.isBlank then
    let contents ← Base64.decode? (body.filter fun byte => !Bytes.isBlank byte)
    some (⟨String.ofList name, headers, contents⟩, (Bytes.cutLine behind).2)
  else
    none

/-- Reads the rest of a block, from behind the mark that begins its `BEGIN` line. -/
def readBlock? (data : Bytes) : Option (Block × Bytes) :=
  (label? (Bytes.cutLine data).1).bind fun label => readLines? label (Bytes.cutLine data).2

theorem length_behind_lines_le {label lines rest : Bytes} {block : Block}
    (found : readLines? label lines = some (block, rest)) : rest.length ≤ lines.length := by
  simp only [readLines?, Option.bind_eq_bind, Option.bind_eq_some_iff] at found
  obtain ⟨name, _, ⟨headers, behindHeaders⟩, headersFound, ⟨body, behind⟩, bodyFound, tail⟩ :=
    found
  have firstBound := length_behind_headers_le headersFound
  have secondBound := length_behind_cutAtLine_le bodyFound
  have thirdBound := Bytes.length_cutLine_le behind
  split at tail
  · obtain ⟨contents, _, equal⟩ := Option.bind_eq_some_iff.mp tail
    simp only [Option.some.injEq, Prod.mk.injEq] at equal
    rw [← equal.2]
    exact Nat.le_trans thirdBound (by simp only at secondBound; omega)
  · simp at tail

theorem length_behind_block_le {data rest : Bytes} {block : Block}
    (found : readBlock? data = some (block, rest)) : rest.length ≤ data.length := by
  obtain ⟨label, _, linesFound⟩ := Option.bind_eq_some_iff.mp found
  exact Nat.le_trans (length_behind_lines_le linesFound) (Bytes.length_cutLine_le data)

def behindMark? (data : Bytes) : Option Bytes := (cutAtLine? beginMark data).map Prod.snd

theorem length_behindMark_lt {data behind : Bytes} (found : behindMark? data = some behind) :
    behind.length < data.length := by
  obtain ⟨⟨before, after⟩, cutFound, equal⟩ := Option.map_eq_some_iff.mp found
  have bound := length_behind_cutAtLine_le cutFound
  have positive : 0 < beginMark.length := by decide
  simp only at equal
  rw [← equal]
  omega

def first? (data : Bytes) : Option (Block × Bytes) :=
  match _found : behindMark? data with
  | none => none
  | some behind =>
    match readBlock? behind with
    | some result => some result
    | none => first? behind
termination_by data.length
decreasing_by exact length_behindMark_lt ‹_›

theorem length_behind_first_lt {data rest : Bytes} {block : Block}
    (found : first? data = some (block, rest)) : rest.length < data.length := by
  fun_induction first? data with
  | case1 => simp at found
  | case2 data behind markFound result blockFound =>
      simp only [Option.some.injEq] at found
      exact Nat.lt_of_le_of_lt (length_behind_block_le (found ▸ blockFound))
        (length_behindMark_lt markFound)
  | case3 data behind markFound _ inductionHypothesis =>
      exact Nat.lt_trans (inductionHypothesis found) (length_behindMark_lt markFound)

def all (data : Bytes) : List Block :=
  match _found : first? data with
  | none => []
  | some (block, rest) => block :: all rest
termination_by data.length
decreasing_by exact length_behind_first_lt ‹_›

end ByteListing.Pem
