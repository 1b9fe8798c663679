import ByteListing.Bytes.Base128

/-! # Numbers in groups of seven bits

Which groups make up one number, and what the readers of such numbers do with them.
`Terminated` says that exactly the last group ends the number; groups that are zero may stand in
front.  `mostFirst?_iff` describes the reader with a bound by the whole number alone, although
it checks the bound after every group; `splitGroups_iff` describes the search for the end. -/
set_option autoImplicit false
namespace ByteListing.Base128

/-- Octets that hold one number: all but the last one continue. -/
inductive Terminated : Bytes → Prop
  | last {byte : UInt8} : continues byte = false → Terminated [byte]
  | more {byte : UInt8} {rest : Bytes} :
      continues byte = true → Terminated rest → Terminated (byte :: rest)

def mostFirstFrom (value : Nat) (groups : Bytes) : Nat :=
  groups.foldl (fun number byte => number * 128 + digit byte) value

def mostFirst (groups : Bytes) : Nat := mostFirstFrom 0 groups

theorem Terminated.ne_nil {groups : Bytes} (terminated : Terminated groups) : groups ≠ [] := by
  cases terminated <;> simp

theorem le_mostFirstFrom (value : Nat) (groups : Bytes) : value ≤ mostFirstFrom value groups := by
  induction groups generalizing value with
  | nil => exact Nat.le_refl value
  | cons byte rest inductionHypothesis =>
      have step := inductionHypothesis (value * 128 + digit byte)
      have here : value ≤ value * 128 + digit byte := by omega
      exact Nat.le_trans here step

theorem mostFirst?_append {bound value : Nat} {groups : Bytes} (terminated : Terminated groups)
    (small : mostFirstFrom value groups < bound) (remaining : Bytes) :
    mostFirst? bound value (groups ++ remaining) =
      some (mostFirstFrom value groups, remaining) := by
  induction terminated generalizing value with
  | @last byte ends =>
      have within : ¬ bound ≤ value * 128 + digit byte := Nat.not_le_of_lt small
      simp [mostFirst?, mostFirstFrom, within, ends]
  | @more byte rest goes _ inductionHypothesis =>
      have later := le_mostFirstFrom (value * 128 + digit byte) rest
      have within : ¬ bound ≤ value * 128 + digit byte :=
        Nat.not_le_of_lt (Nat.lt_of_le_of_lt later small)
      rw [List.cons_append, mostFirst?]
      simp only [within, if_false, goes, if_true]
      exact inductionHypothesis small

theorem terminated_of_mostFirst? {bound value number : Nat} {data remaining : Bytes}
    (success : mostFirst? bound value data = some (number, remaining)) :
    ∃ groups, data = groups ++ remaining ∧ Terminated groups ∧
      number = mostFirstFrom value groups ∧ number < bound := by
  induction data generalizing value with
  | nil => simp [mostFirst?] at success
  | cons byte rest inductionHypothesis =>
      simp only [mostFirst?] at success
      split at success
      · simp at success
      · rename_i within
        split at success
        · rename_i goes
          obtain ⟨groups, rfl, terminated, rfl, small⟩ := inductionHypothesis success
          exact ⟨byte :: groups, rfl, .more goes terminated, rfl, small⟩
        · rename_i ends
          obtain ⟨rfl, rfl⟩ := Prod.mk.inj (Option.some.inj success)
          exact ⟨[byte], rfl, .last (by simpa using ends), rfl, Nat.lt_of_not_le within⟩

/-- The reader takes one number and leaves the rest, exactly if the number is below the
bound. -/
theorem mostFirst?_iff {bound value number : Nat} {data remaining : Bytes} :
    mostFirst? bound value data = some (number, remaining) ↔
      ∃ groups, data = groups ++ remaining ∧ Terminated groups ∧
        number = mostFirstFrom value groups ∧ number < bound := by
  constructor
  · exact terminated_of_mostFirst?
  · rintro ⟨groups, rfl, terminated, rfl, small⟩
    exact mostFirst?_append terminated small remaining

theorem splitGroups_append {limit : Nat} {groups : Bytes} (terminated : Terminated groups)
    (short : groups.length ≤ limit) (remaining : Bytes) :
    splitGroups limit (groups ++ remaining) = some (groups, remaining) := by
  induction terminated generalizing limit with
  | @last byte ends =>
      cases limit with
      | zero => cases short
      | succ limit =>
          rw [List.cons_append, List.nil_append, splitGroups, ends]
          rfl
  | @more byte rest goes _ inductionHypothesis =>
      cases limit with
      | zero => cases short
      | succ limit =>
          have later := inductionHypothesis (Nat.le_of_succ_le_succ short)
          rw [List.cons_append, splitGroups, goes, later]
          rfl

theorem splitGroups_iff {limit : Nat} {data groups remaining : Bytes} :
    splitGroups limit data = some (groups, remaining) ↔
      data = groups ++ remaining ∧ Terminated groups ∧ groups.length ≤ limit := by
  constructor
  · intro success
    refine ⟨append_of_splitGroups success, ?_⟩
    induction limit generalizing data groups with
    | zero => simp [splitGroups] at success
    | succ limit inductionHypothesis =>
        cases data with
        | nil => simp [splitGroups] at success
        | cons byte rest =>
            simp only [splitGroups] at success
            split at success
            · rename_i goes
              obtain ⟨⟨tail, after⟩, found, equal⟩ := Option.map_eq_some_iff.mp success
              obtain ⟨rfl, rfl⟩ := Prod.mk.inj equal
              obtain ⟨terminated, short⟩ := inductionHypothesis found
              exact ⟨.more goes terminated, Nat.succ_le_succ short⟩
            · rename_i ends
              obtain ⟨rfl, rfl⟩ := Prod.mk.inj (Option.some.inj success)
              exact ⟨.last (by simpa using ends), Nat.succ_le_succ (Nat.zero_le limit)⟩
  · rintro ⟨rfl, terminated, short⟩
    exact splitGroups_append terminated short remaining

end ByteListing.Base128
