import ByteListing.Proofs.Bytes.LeastFirst
import ByteListing.Proofs.Dex.DeclaredCounts
import ByteListing.Proofs.Dex.Positions

/-! # Reading numbers of a container

A number is read at any position of any octets, also behind their end.  The reading is told by the
octets from the position on: one of the next five has to end the number (`varint_eq_ok_iff`), and
where none does, the fault tells whether there were five (`varint_eq_error`).

Numbers that are written one behind the other, each in one to five octets and in as many as one
likes, are read one behind the other (`numbers_of_holds`). -/
set_option autoImplicit false
namespace ByteListing.Dex

open Base128 (EndsAt Writes weighted)

section

variable {data : Bytes} {position : Nat}

theorem varint_eq_ok_iff {number next : Nat} :
    varint data position = .ok (number, next) ↔ ∃ last < 5, EndsAt (data.drop position) last ∧
      number = weighted (data.drop position) (last + 1) % 2 ^ 32 ∧
        next = position + (last + 1) := by
  rw [varint]
  generalize data.drop position = rest
  constructor
  · intro success
    split at success
    · rename_i groups remaining found
      obtain ⟨rfl, rfl⟩ := Prod.mk.inj (Except.ok.inj success)
      obtain ⟨last, inside, ended, worth, count⟩ := Base128.endsAt_of_splitGroups found
      refine ⟨last, inside, (Base128.endsAt_take_iff inside).mp ended, ?_, ?_⟩
      · rw [worth, Base128.weighted_take inside]
        rfl
      · rw [count]
    · split at success <;> cases success
  · rintro ⟨last, inside, ended, rfl, rfl⟩
    have inner := (Base128.endsAt_take_iff inside).mpr ended
    obtain ⟨groups, remaining, found, worth, count⟩ := Base128.splitGroups_of_endsAt inner inside
    simp only [found, worth, count, Base128.weighted_take inside]
    rfl

/-- A failure tells where the number begins if there are five octets for it, and else where the
octet that is missing should have been. -/
theorem varint_eq_error {fault : Fault} (failed : varint data position = .error fault) :
    fault = if position + 5 ≤ data.length then Flaw.longVarint.fault position
      else (Flaw.truncated .byte).fault (max position data.length) := by
  have window : ((data.drop position).take 5).length = min 5 (data.length - position) := by
    rw [List.length_take, List.length_drop]
  rw [varint] at failed
  split at failed
  · cases failed
  · rw [window] at failed
    by_cases five : position + 5 ≤ data.length
    · have length : min 5 (data.length - position) = 5 := by omega
      rw [if_pos length] at failed
      rw [if_pos five]
      exact (Except.error.inj failed).symm
    · have length : min 5 (data.length - position) ≠ 5 := by omega
      have stop : position + min 5 (data.length - position) = max position data.length := by omega
      rw [if_neg length, stop] at failed
      rw [if_neg five]
      exact (Except.error.inj failed).symm

theorem varint_of_writes {octets : Bytes} {number : Nat} (held : Holds data position octets)
    (written : Writes octets number) (short : octets.length ≤ 5) (small : number < 2 ^ 32) :
    varint data position = .ok (number, position + octets.length) := by
  rw [varint_of_terminated held written.terminated short, written.leastFirst_eq,
    Nat.mod_eq_of_lt small]

theorem numbers_of_holds {written : List (Nat × Bytes)}
    (proper : ∀ entry ∈ written,
      Writes entry.2 entry.1 ∧ entry.2.length ≤ 5 ∧ entry.1 < 2 ^ 32)
    (held : Holds data position (written.flatMap Prod.snd)) :
    Numbers data position (written.map Prod.fst)
      (position + (written.flatMap Prod.snd).length) := by
  induction written generalizing position with
  | nil => exact .nil
  | cons entry others inductionHypothesis =>
      obtain ⟨⟨entryWritten, short, small⟩, othersProper⟩ := List.forall_mem_cons.mp proper
      rw [List.flatMap_cons] at held ⊢
      have read := varint_of_writes held.front entryWritten short small
      have later := inductionHypothesis othersProper held.behind
      rw [List.length_append, ← Nat.add_assoc]
      exact .cons read later

end

/-- Reading a number is exact at every position.  It succeeds if one of the next five octets does
not continue, with what the groups up to the first such octet are worth modulo `2 ^ 32` and the
position behind it.  Numbers of 32 bits are read back from every way to write them in at most five
octets each, whatever stands around them, and reading stops exactly behind the last one.  A failure
names the beginning of the number if there are five octets, and else the end of the input or the
position if that is behind it. -/
theorem numbers_are_exact :
    (∀ data position, (∃ result, varint data position = .ok result) ↔
      ∃ index < 5, ∃ byte, data[position + index]? = some byte ∧ byte.toNat < 128) ∧
    (∀ data position number next, varint data position = .ok (number, next) ↔
      ∃ last < 5, EndsAt (data.drop position) last ∧
        number = weighted (data.drop position) (last + 1) % 2 ^ 32 ∧
          next = position + (last + 1)) ∧
    (∀ (front rest : Bytes) (written : List (Nat × Bytes)),
      (∀ entry ∈ written, Writes entry.2 entry.1 ∧ entry.2.length ≤ 5 ∧ entry.1 < 2 ^ 32) →
      Numbers (front ++ (written.flatMap Prod.snd ++ rest)) front.length (written.map Prod.fst)
        (front.length + (written.flatMap Prod.snd).length)) ∧
    ∀ data position fault, varint data position = .error fault →
      (position + 5 ≤ data.length → fault = .malformedContainer position
        "uleb128 value longer than five bytes") ∧
      (data.length < position + 5 → fault = .malformedContainer (max position data.length)
        "truncated byte") := by
  refine ⟨?_, ?_, ?_, ?_⟩
  · intro data position
    have ends := @Base128.exists_endsAt_iff (data.drop position) 5
    simp only [List.getElem?_drop] at ends
    rw [← ends]
    constructor
    · rintro ⟨⟨number, next⟩, success⟩
      obtain ⟨last, inside, ended, -⟩ := varint_eq_ok_iff.mp success
      exact ⟨last, inside, ended⟩
    · rintro ⟨last, inside, ended⟩
      exact ⟨_, varint_eq_ok_iff.mpr ⟨last, inside, ended, rfl, rfl⟩⟩
  · intro data position number next
    exact varint_eq_ok_iff
  · intro front rest written proper
    exact numbers_of_holds proper ⟨front, rest, rfl, rfl⟩
  · intro data position fault failed
    rw [varint_eq_error failed]
    constructor
    · intro five
      rw [if_pos five]
      rfl
    · intro short
      rw [if_neg (Nat.not_le_of_lt short)]
      rfl

/-- Two numbers between other octets, the first one padded to five octets, and numbers that do not
end: in five octets, in the octets that there are, and behind these. -/
theorem numbers_between_octets :
    Numbers [0xFF, 0x80, 0x80, 0x80, 0x80, 0x00, 0xE5, 0x8E, 0x26, 0x07] 1 [0, 624485] 9 ∧
    (∃ fault, varint [0x80, 0x80, 0x80, 0x80, 0x80, 0x01] 0 = .error fault ∧
      fault = .malformedContainer 0 "uleb128 value longer than five bytes") ∧
    (∃ fault, varint [0x80, 0x80] 1 = .error fault ∧
      fault = .malformedContainer 2 "truncated byte") ∧
    ∃ fault, varint [0x80] 4 = .error fault ∧ fault = .malformedContainer 4 "truncated byte" := by
  obtain ⟨-, -, written, failed⟩ := numbers_are_exact
  refine ⟨?_, ?_, ?_, ?_⟩
  · have padded : Writes [0x80, 0x80, 0x80, 0x80, 0x00] 0 :=
      Base128.writes_iff.mpr ⟨4, by decide, rfl⟩
    have shortest : Writes [0xE5, 0x8E, 0x26] 624485 :=
      Base128.writes_iff.mpr ⟨2, by decide, rfl⟩
    refine written [0xFF] [0x07]
      [(0, [0x80, 0x80, 0x80, 0x80, 0x00]), (624485, [0xE5, 0x8E, 0x26])] ?_
    simp [padded, shortest]
  · exact ⟨_, rfl, (failed [0x80, 0x80, 0x80, 0x80, 0x80, 0x01] 0 _ rfl).1 (by decide)⟩
  · exact ⟨_, rfl, (failed [0x80, 0x80] 1 _ rfl).2 (by decide)⟩
  · exact ⟨_, rfl, (failed [0x80] 4 _ rfl).2 (by decide)⟩

end ByteListing.Dex
