import ByteListing.Text.Utf8

/-! # Well-formed UTF-8

Strict decoding is undone by encoding: the octets of a text that was decoded are those that were
read.  A first octet announces its payload bits and how many octets follow; `Announces` says
which announcements there are, one width after the other, and each width has its lemma on what
the character is encoded as. -/
set_option autoImplicit false
namespace ByteListing.Utf8

/-! ## First octets -/

def Announces (byte : UInt8) : Lead → Prop
  | ⟨payload, 0, _, _⟩ => byte.toNat = payload ∧ payload < 128
  | ⟨payload, 1, low, high⟩ =>
    byte.toNat = payload + 192 ∧ 2 ≤ payload ∧ payload < 32 ∧ low = 0x80 ∧ high = 0xBF
  | ⟨payload, 2, low, high⟩ =>
    byte.toNat = payload + 224 ∧ payload < 16 ∧ 0x80 ≤ low.toNat ∧ high.toNat ≤ 0xBF ∧
      (payload = 0 → 0xA0 ≤ low.toNat) ∧ (payload = 13 → high.toNat ≤ 0x9F)
  | ⟨payload, 3, low, high⟩ =>
    byte.toNat = payload + 240 ∧ payload < 5 ∧ 0x80 ≤ low.toNat ∧ high.toNat ≤ 0xBF ∧
      (payload = 0 → 0x90 ≤ low.toNat) ∧ (payload = 4 → high.toNat ≤ 0x8F)
  | _ => False

theorem announces_of_lead? {byte : UInt8} {lead : Lead} (success : lead? byte = some lead) :
    Announces byte lead := by
  have bound := byte.toNat_lt
  revert success
  fun_cases lead? byte <;> rintro ⟨⟩ <;>
    simp only [Announces, UInt8.lt_iff_toNat_lt, ← UInt8.toNat_inj, UInt8.reduceToNat, true_and,
      and_true] at * <;>
    omega

/-! ## The octets that follow -/

theorem follow_succ {following value : Nat} {low high : UInt8} {rest after : Bytes} {c : Char}
    (success : follow (following + 1) low high value rest = (some c, after)) :
    ∃ byte others, rest = byte :: others ∧ low.toNat ≤ byte.toNat ∧ byte.toNat ≤ high.toNat ∧
      follow following 0x80 0xBF (value * 64 + byte.toNat % 64) others = (some c, after) := by
  cases rest with
  | nil => cases success
  | cons byte others =>
      rw [follow] at success
      split at success
      · rename_i within
        exact ⟨byte, others, rfl, within.1, within.2, success⟩
      · cases success

theorem follow_zero {value : Nat} {low high : UInt8} {rest after : Bytes} {c : Char}
    (success : follow 0 low high value rest = (some c, after)) :
    c = Char.ofNat value ∧ rest = after := by
  cases success
  exact ⟨rfl, rfl⟩

/-! ## The encoding of a character by its width -/

theorem val_ofNat {value : Nat} (valid : value.isValidChar) :
    (Char.ofNat value).val.toNat = value := by
  rw [Char.ofNat, dif_pos valid]
  rfl

theorem ofNat_eq (byte : UInt8) {value : Nat} (equal : value = byte.toNat) :
    UInt8.ofNat value = byte := by
  rw [equal, UInt8.ofNat_toNat]

theorem encode_one {first : UInt8} {payload : Nat} (announced : first.toNat = payload)
    (small : payload < 128) : String.utf8EncodeChar (Char.ofNat payload) = [first] := by
  have valid : payload.isValidChar := .inl (by omega)
  simp only [String.utf8EncodeChar, val_ofNat valid]
  rw [if_pos (by omega), ofNat_eq first announced.symm]

theorem encode_two {first second : UInt8} {payload : Nat} (announced : first.toNat = payload + 192)
    (least : 2 ≤ payload) (most : payload < 32) (low : 0x80 ≤ second.toNat)
    (high : second.toNat ≤ 0xBF) :
    String.utf8EncodeChar (Char.ofNat (payload * 64 + second.toNat % 64)) = [first, second] := by
  generalize shown : payload * 64 + second.toNat % 64 = value
  have valid : value.isValidChar := .inl (by omega)
  simp only [String.utf8EncodeChar, val_ofNat valid]
  rw [if_neg (by omega), if_pos (by omega), ofNat_eq first (by omega),
    ofNat_eq second (by omega)]

theorem encode_three {first second third : UInt8} {payload : Nat}
    (announced : first.toNat = payload + 224) (most : payload < 16)
    (secondLow : 0x80 ≤ second.toNat) (secondHigh : second.toNat ≤ 0xBF)
    (shortest : payload = 0 → 0xA0 ≤ second.toNat)
    (noSurrogate : payload = 13 → second.toNat ≤ 0x9F)
    (thirdLow : 0x80 ≤ third.toNat) (thirdHigh : third.toNat ≤ 0xBF) :
    String.utf8EncodeChar
        (Char.ofNat ((payload * 64 + second.toNat % 64) * 64 + third.toNat % 64)) =
      [first, second, third] := by
  generalize shown : (payload * 64 + second.toNat % 64) * 64 + third.toNat % 64 = value
  have valid : value.isValidChar := by
    by_cases before : payload ≤ 13
    · exact .inl (by omega)
    · exact .inr (by omega)
  simp only [String.utf8EncodeChar, val_ofNat valid]
  rw [if_neg (by omega), if_neg (by omega), if_pos (by omega),
    ofNat_eq first (by omega), ofNat_eq second (by omega),
    ofNat_eq third (by omega)]

theorem encode_four {first second third fourth : UInt8} {payload : Nat}
    (announced : first.toNat = payload + 240) (most : payload < 5)
    (secondLow : 0x80 ≤ second.toNat) (secondHigh : second.toNat ≤ 0xBF)
    (shortest : payload = 0 → 0x90 ≤ second.toNat)
    (noLarger : payload = 4 → second.toNat ≤ 0x8F)
    (thirdLow : 0x80 ≤ third.toNat) (thirdHigh : third.toNat ≤ 0xBF)
    (fourthLow : 0x80 ≤ fourth.toNat) (fourthHigh : fourth.toNat ≤ 0xBF) :
    String.utf8EncodeChar (Char.ofNat (((payload * 64 + second.toNat % 64) * 64 +
        third.toNat % 64) * 64 + fourth.toNat % 64)) = [first, second, third, fourth] := by
  generalize shown : ((payload * 64 + second.toNat % 64) * 64 + third.toNat % 64) * 64 +
    fourth.toNat % 64 = value
  have valid : value.isValidChar := .inr (by omega)
  simp only [String.utf8EncodeChar, val_ofNat valid]
  rw [if_neg (by omega), if_neg (by omega), if_neg (by omega),
    ofNat_eq first (by omega), ofNat_eq second (by omega),
    ofNat_eq third (by omega), ofNat_eq fourth (by omega)]

theorem encode_of_follow {byte : UInt8} {lead : Lead} {rest after : Bytes} {c : Char}
    (announced : Announces byte lead)
    (success : follow lead.following lead.low lead.high lead.payload rest = (some c, after)) :
    String.utf8EncodeChar c ++ after = byte :: rest := by
  obtain ⟨payload, following, low, high⟩ := lead
  match following with
  | 0 =>
      obtain ⟨rfl, rfl⟩ := follow_zero success
      rw [encode_one announced.1 announced.2]
      rfl
  | 1 =>
      obtain ⟨first, least, most, rfl, rfl⟩ := announced
      obtain ⟨second, others, rfl, secondLow, secondHigh, success⟩ := follow_succ success
      obtain ⟨rfl, rfl⟩ := follow_zero success
      rw [encode_two first least most secondLow secondHigh]
      rfl
  | 2 =>
      obtain ⟨first, most, leastLow, mostHigh, shortest, noSurrogate⟩ := announced
      obtain ⟨second, others, rfl, secondLow, secondHigh, success⟩ := follow_succ success
      obtain ⟨third, others, rfl, thirdLow, thirdHigh, success⟩ := follow_succ success
      obtain ⟨rfl, rfl⟩ := follow_zero success
      have noShorter (noneSet : payload = 0) := Nat.le_trans (shortest noneSet) secondLow
      have below (last : payload = 13) := Nat.le_trans secondHigh (noSurrogate last)
      rw [encode_three first most (Nat.le_trans leastLow secondLow)
        (Nat.le_trans secondHigh mostHigh) noShorter below thirdLow thirdHigh]
      rfl
  | 3 =>
      obtain ⟨first, most, leastLow, mostHigh, shortest, noLarger⟩ := announced
      obtain ⟨second, others, rfl, secondLow, secondHigh, success⟩ := follow_succ success
      obtain ⟨third, others, rfl, thirdLow, thirdHigh, success⟩ := follow_succ success
      obtain ⟨fourth, others, rfl, fourthLow, fourthHigh, success⟩ := follow_succ success
      obtain ⟨rfl, rfl⟩ := follow_zero success
      have noShorter (noneSet : payload = 0) := Nat.le_trans (shortest noneSet) secondLow
      have below (last : payload = 4) := Nat.le_trans secondHigh (noLarger last)
      rw [encode_four first most (Nat.le_trans leastLow secondLow)
        (Nat.le_trans secondHigh mostHigh) noShorter below thirdLow thirdHigh fourthLow
        fourthHigh]
      rfl
  | following + 4 => exact announced.elim

/-! ## Whole byte strings -/

theorem encode_cons (c : Char) (text : List Char) :
    encode (c :: text) = String.utf8EncodeChar c ++ encode text := rfl

theorem encode_of_decode? {data : Bytes} {text : List Char} (success : decode? data = some text) :
    encode text = data := by
  rw [decode?] at success
  fun_induction pieces data generalizing text with
  | case1 =>
      cases success
      rfl
  | case2 byte rest noLead inductionHypothesis => cases success
  | case3 byte rest lead announced followed =>
      rename_i inductionHypothesis
      rw [List.mapM_cons] at success
      obtain ⟨c, first, success⟩ := Option.bind_eq_some_iff.mp success
      obtain ⟨others, restRead, equal⟩ := Option.bind_eq_some_iff.mp success
      cases equal
      rw [encode_cons, inductionHypothesis restRead]
      exact encode_of_follow (announces_of_lead? announced) (Prod.ext first rfl)

end ByteListing.Utf8
