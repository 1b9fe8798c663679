import ByteListing.Text.Hex

/-! # Digits read back

Reading pairs of digits undoes writing octets in digits, so different byte strings have
different literals. -/
set_option autoImplicit false
namespace ByteListing.Hex

theorem value?_digit {value : Nat} (small : value < 16) : value? (digit value) = some value := by
  revert value
  decide

theorem pairs_octet_append (byte : UInt8) (rest : List Char) :
    pairs (octet byte ++ rest) = byte :: pairs rest := by
  have bound := byte.toNat_lt
  have split : 16 * (byte.toNat / 16) + byte.toNat % 16 = byte.toNat := Nat.div_add_mod ..
  simp only [octet, List.cons_append, List.nil_append, pairs,
    value?_digit (show byte.toNat / 16 < 16 by omega),
    value?_digit (show byte.toNat % 16 < 16 by omega), Option.getD_some, split,
    UInt8.ofNat_toNat]

theorem pairs_digits (data : Bytes) : pairs (digits data) = data := by
  induction data with
  | nil => rfl
  | cons byte rest inductionHypothesis =>
      rw [digits, List.flatMap_cons, pairs_octet_append]
      exact congrArg _ inductionHypothesis

theorem value?_of_mem_digits {data : Bytes} {c : Char} (member : c ∈ digits data) :
    (value? c).isSome = true := by
  obtain ⟨byte, -, written⟩ := List.mem_flatMap.mp member
  have bound := byte.toNat_lt
  simp only [octet, List.mem_cons, List.not_mem_nil, or_false] at written
  obtain rfl | rfl := written
  · rw [value?_digit (by omega)]
    rfl
  · rw [value?_digit (by omega)]
    rfl

/-! ## Digits of either case -/

theorem value?_toLower (c : Char) : value? c.toLower = value? c := by
  by_cases upper : 65 ≤ c.toNat ∧ c.toNat ≤ 90
  · have letters : ∀ place < 26,
        value? (Char.ofNat (65 + place)).toLower = value? (Char.ofNat (65 + place)) := by decide
    have found := letters (c.toNat - 65) (by omega)
    rwa [Nat.add_sub_cancel' upper.1, Char.ofNat_toNat] at found
  · have same : c.toLower = c := dif_neg upper
    rw [same]

theorem pairs_toLower (text : List Char) : pairs (text.map Char.toLower) = pairs text := by
  fun_induction pairs text with
  | case1 high low rest inductionHypothesis =>
      rw [List.map_cons, List.map_cons, pairs, value?_toLower, value?_toLower,
        inductionHypothesis]
  | case2 text short =>
      match text, short with
      | [], _ | [_], _ => rfl
      | high :: low :: rest, short => exact absurd rfl (short high low rest)

theorem firstInvalid_eq_none {text : List Char} (all : ∀ c ∈ text, (value? c).isSome = true)
    (position : Nat) : firstInvalid position text = none := by
  induction text generalizing position with
  | nil => rfl
  | cons c rest inductionHypothesis =>
      rw [firstInvalid, if_pos (all c List.mem_cons_self)]
      exact inductionHypothesis (fun other member => all other (List.mem_cons_of_mem c member)) _

theorem length_digits (data : Bytes) : (digits data).length = 2 * data.length := by
  induction data with
  | nil => rfl
  | cons byte rest inductionHypothesis =>
      rw [digits, List.flatMap_cons, ← digits, List.length_append, inductionHypothesis, octet,
        List.length_cons, List.length_singleton, List.length_cons, Nat.mul_succ, Nat.add_comm]

theorem value?_of_toLower {text : List Char} {data : Bytes}
    (written : text.map Char.toLower = digits data) {c : Char} (member : c ∈ text) :
    (value? c).isSome = true := by
  have lowered := List.mem_map_of_mem (f := Char.toLower) member
  rw [written] at lowered
  rw [← value?_toLower]
  exact value?_of_mem_digits lowered

theorem decode_of_toLower {text : List Char} {data : Bytes}
    (written : text.map Char.toLower = digits data) : decode text = .ok data := by
  have all : ∀ c ∈ text, (value? c).isSome = true := fun _ => value?_of_toLower written
  have even : text.length % 2 = 0 := by
    rw [← List.length_map (f := Char.toLower), written, length_digits]
    exact Nat.mul_mod_right ..
  simp only [decode, firstInvalid_eq_none all, if_pos even]
  rw [← pairs_toLower, written, pairs_digits]

theorem toNat_lt_of_value? {c : Char} (digit : (value? c).isSome = true) : c.toNat < 128 := by
  rw [value?] at digit
  split at digit
  · rename_i decimal
    exact Nat.lt_of_le_of_lt (UInt32.le_iff_toNat_le.mp decimal.2) (by decide)
  · split at digit
    · rename_i small
      exact Nat.lt_of_le_of_lt (UInt32.le_iff_toNat_le.mp small.2) (by decide)
    · split at digit
      · rename_i capital
        exact Nat.lt_of_le_of_lt (UInt32.le_iff_toNat_le.mp capital.2) (by decide)
      · cases digit

/-- What holds of the digits among the codes below 128 holds of every digit. -/
theorem forall_digit (P : Char → Prop) (codes : ∀ code < 128,
      (value? (Char.ofNat code)).isSome = true → P (Char.ofNat code)) {c : Char}
    (digit : (value? c).isSome = true) : P c := by
  have found := codes c.toNat (toNat_lt_of_value? digit)
  rw [Char.ofNat_toNat] at found
  exact found digit

theorem digit_of_value? {c : Char} {value : Nat} (read : value? c = some value) :
    value < 16 ∧ digit value = c.toLower := by
  have lowered : ∀ value ∈ value? c, value < 16 ∧ digit value = c.toLower := by
    refine forall_digit (fun c => ∀ value ∈ value? c, value < 16 ∧ digit value = c.toLower) ?_
      (Option.isSome_of_mem read)
    decide +kernel
  exact lowered value read

theorem digits_pairs {text : List Char} (all : ∀ c ∈ text, (value? c).isSome = true)
    (even : text.length % 2 = 0) : digits (pairs text) = text.map Char.toLower := by
  fun_induction pairs text with
  | case1 high low rest inductionHypothesis =>
      obtain ⟨upper, highRead⟩ := Option.isSome_iff_exists.mp (all high List.mem_cons_self)
      obtain ⟨lower, lowRead⟩ := Option.isSome_iff_exists.mp
        (all low (List.mem_cons_of_mem _ List.mem_cons_self))
      obtain ⟨upperSmall, highWritten⟩ := digit_of_value? highRead
      obtain ⟨lowerSmall, lowWritten⟩ := digit_of_value? lowRead
      have number : (UInt8.ofNat (16 * upper + lower)).toNat = 16 * upper + lower := by
        rw [UInt8.toNat_ofNat']
        omega
      have upperPart : (16 * upper + lower) / 16 = upper := by omega
      have lowerPart : (16 * upper + lower) % 16 = lower := by omega
      have restEven : rest.length % 2 = 0 := by
        simp only [List.length_cons] at even
        omega
      have restDigits := inductionHypothesis
        (fun c member => all c (List.mem_cons_of_mem _ (List.mem_cons_of_mem _ member))) restEven
      rw [highRead, lowRead, Option.getD_some, Option.getD_some, digits, List.flatMap_cons,
        ← digits, restDigits, octet, number, upperPart, lowerPart, highWritten, lowWritten]
      rfl
  | case2 text short =>
      match text, short with
      | [], _ => rfl
      | [c], _ => cases even
      | high :: low :: rest, short => exact absurd rfl (short high low rest)

theorem toList_literal (data : Bytes) : (literal data).toList = '`' :: (digits data ++ ['`']) := by
  simp only [literal, text, String.toList_append, String.toList_ofList]
  rfl

theorem not_mem_literal {mark : Char} (noDigit : value? mark = none) (noTick : mark ≠ '`')
    (data : Bytes) : mark ∉ (literal data).toList := by
  rw [toList_literal, List.mem_cons, List.mem_append, List.mem_singleton]
  rintro (equal | member | equal)
  · exact noTick equal
  · have isDigit := value?_of_mem_digits member
    rw [noDigit] at isDigit
    cases isDigit
  · exact noTick equal

theorem no_feed_literal (data : Bytes) : '\n' ∉ (literal data).toList :=
  not_mem_literal rfl (by decide) data

theorem literal_inj {first second : Bytes} (same : literal first = literal second) :
    first = second := by
  have listed := congrArg String.toList same
  rw [toList_literal, toList_literal, List.cons.injEq, List.append_cancel_right_eq] at listed
  rw [← pairs_digits first, listed.2, pairs_digits]

end ByteListing.Hex
