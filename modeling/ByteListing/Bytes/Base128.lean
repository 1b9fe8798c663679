import ByteListing.Bytes

/-! # Base-128 groups

An octet with a clear high bit ends a number written in base 128; the octets before it have
the high bit set and carry seven bits each.  `splitGroups` finds the end of such a number,
and the two valuations read the groups with the least or the most significant one first. -/
set_option autoImplicit false
namespace ByteListing.Base128

def continues (byte : UInt8) : Bool := 0x80 ≤ byte

def digit (byte : UInt8) : Nat := byte.toNat % 128

/-- Splits off the first number: the octets up to and including the first one that does not
continue, and what follows it.  At most `limit` octets are looked at. -/
def splitGroups : (limit : Nat) → Bytes → Option (Bytes × Bytes)
  | 0, _ => none
  | _ + 1, [] => none
  | limit + 1, byte :: rest =>
    if continues byte then
      (splitGroups limit rest).map fun (groups, remaining) => (byte :: groups, remaining)
    else
      some ([byte], rest)

def leastFirst : Bytes → Nat
  | [] => 0
  | byte :: rest => digit byte + 128 * leastFirst rest

/-- Reads a number whose first group is the most significant one, after groups worth `value`:
the number, which has to stay below `bound` throughout, and what follows it. -/
def mostFirst? (bound value : Nat) : Bytes → Option (Nat × Bytes)
  | [] => none
  | byte :: rest =>
    let next := value * 128 + digit byte
    if bound ≤ next then none
    else if continues byte then mostFirst? bound next rest
    else some (next, rest)

theorem append_of_splitGroups {limit : Nat} {data groups remaining : Bytes}
    (success : splitGroups limit data = some (groups, remaining)) :
    data = groups ++ remaining := by
  induction limit generalizing data groups remaining with
  | zero => simp [splitGroups] at success
  | succ limit inductionHypothesis =>
      cases data with
      | nil => simp [splitGroups] at success
      | cons byte rest =>
          simp only [splitGroups] at success
          split at success
          · obtain ⟨⟨tail, after⟩, inner, equal⟩ := Option.map_eq_some_iff.mp success
            obtain ⟨rfl, rfl⟩ := Prod.mk.inj equal
            simp [inductionHypothesis inner]
          · obtain ⟨rfl, rfl⟩ := Prod.mk.inj (Option.some.inj success)
            rfl

theorem length_pos_of_splitGroups {limit : Nat} {data groups remaining : Bytes}
    (success : splitGroups limit data = some (groups, remaining)) : 0 < groups.length := by
  cases limit with
  | zero => simp [splitGroups] at success
  | succ limit =>
      cases data with
      | nil => simp [splitGroups] at success
      | cons byte rest =>
          simp only [splitGroups] at success
          split at success
          · obtain ⟨⟨tail, after⟩, inner, equal⟩ := Option.map_eq_some_iff.mp success
            obtain ⟨rfl, rfl⟩ := Prod.mk.inj equal
            simp
          · obtain ⟨rfl, rfl⟩ := Prod.mk.inj (Option.some.inj success)
            simp

theorem length_lt_of_mostFirst? {bound value number : Nat} {data remaining : Bytes}
    (success : mostFirst? bound value data = some (number, remaining)) :
    remaining.length < data.length := by
  induction data generalizing value with
  | nil => simp [mostFirst?] at success
  | cons byte rest inductionHypothesis =>
      simp only [mostFirst?] at success
      split at success
      · simp at success
      · split at success
        · exact Nat.lt_succ_of_lt (inductionHypothesis success)
        · obtain ⟨rfl, rfl⟩ := Prod.mk.inj (Option.some.inj success)
          simp

end ByteListing.Base128
