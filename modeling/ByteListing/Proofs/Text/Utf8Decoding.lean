import ByteListing.Proofs.Text.Utf8

/-! # Encoded text is decoded

Encoded characters come back whatever follows them, so strict and lossy decoding both undo
encoding, and different texts are encoded differently.  There is one lemma for each width; it
says what the first octet announces and that the octet behind it lies in the range for it. -/
set_option autoImplicit false
namespace ByteListing.Utf8

theorem follow_continuation {following value tail : Nat} {low high : UInt8}
    (above : low.toNat ≤ tail % 64 + 128) (below : tail % 64 + 128 ≤ high.toNat) (rest : Bytes) :
    follow (following + 1) low high value (UInt8.ofNat (tail % 64 + 128) :: rest) =
      follow following 0x80 0xBF (value * 64 + tail % 64) rest := by
  have number : (UInt8.ofNat (tail % 64 + 128)).toNat = tail % 64 + 128 := by
    rw [UInt8.toNat_ofNat']
    omega
  have within : low ≤ UInt8.ofNat (tail % 64 + 128) ∧ UInt8.ofNat (tail % 64 + 128) ≤ high := by
    rw [UInt8.le_iff_toNat_le, UInt8.le_iff_toNat_le, number]
    exact ⟨above, below⟩
  have payload : (UInt8.ofNat (tail % 64 + 128)).toNat % 64 = tail % 64 := by omega
  rw [follow, if_pos within, payload]

/-- Behind the octet with the special range, every continuation is in range. -/
theorem follow_later {following value tail : Nat} (rest : Bytes) :
    follow (following + 1) 0x80 0xBF value (UInt8.ofNat (tail % 64 + 128) :: rest) =
      follow following 0x80 0xBF (value * 64 + tail % 64) rest := by
  have above : (0x80 : UInt8).toNat ≤ tail % 64 + 128 := Nat.le_add_left ..
  have below : tail % 64 + 128 ≤ (0xBF : UInt8).toNat := by
    have small : tail % 64 < 64 := Nat.mod_lt _ (by decide)
    have last : (0xBF : UInt8).toNat = 191 := rfl
    omega
  exact follow_continuation above below rest

/-! ## First octets -/

theorem lead?_one {value : Nat} (small : value ≤ 127) :
    lead? (UInt8.ofNat value) = some ⟨value, 0, 0x80, 0xBF⟩ := by
  have number : (UInt8.ofNat value).toNat = value := by
    rw [UInt8.toNat_ofNat']
    omega
  have ascii : UInt8.ofNat value < 0x80 := by
    rw [UInt8.lt_iff_toNat_lt, number]
    exact Nat.lt_succ_of_le small
  rw [lead?, if_pos ascii, number]

theorem lead?_two {payload : Nat} (least : 2 ≤ payload) (most : payload < 32) :
    lead? (UInt8.ofNat (payload + 192)) = some ⟨payload, 1, 0x80, 0xBF⟩ := by
  have number : (UInt8.ofNat (payload + 192)).toNat = payload + 192 := by
    rw [UInt8.toNat_ofNat']
    omega
  have payloadEq : (payload + 192) % 32 = payload := by omega
  simp only [lead?, UInt8.lt_iff_toNat_lt, number, UInt8.reduceToNat]
  rw [if_neg (by omega), if_neg (by omega), if_pos (by omega), payloadEq]

theorem lead?_three {payload next : Nat} (most : payload < 16) (nextSmall : next < 64)
    (shortest : payload = 0 → 32 ≤ next) (noSurrogate : payload = 13 → next < 32) :
    ∃ low high, lead? (UInt8.ofNat (payload + 224)) = some ⟨payload, 2, low, high⟩ ∧
      low.toNat ≤ next + 128 ∧ next + 128 ≤ high.toNat := by
  have number : (UInt8.ofNat (payload + 224)).toNat = payload + 224 := by
    rw [UInt8.toNat_ofNat']
    omega
  have payloadEq : (payload + 224) % 16 = payload := by omega
  simp only [lead?, UInt8.lt_iff_toNat_lt, ← UInt8.toNat_inj, number, UInt8.reduceToNat]
  rw [if_neg (by omega), if_neg (by omega), if_neg (by omega)]
  by_cases zero : payload = 0
  · rw [if_pos (by omega)]
    refine ⟨0xA0, 0xBF, by rw [zero], ?_, ?_⟩ <;> simp only [UInt8.reduceToNat] <;> omega
  · rw [if_neg (by omega)]
    by_cases thirteen : payload = 13
    · rw [if_pos (by omega)]
      refine ⟨0x80, 0x9F, by rw [thirteen], ?_, ?_⟩ <;> simp only [UInt8.reduceToNat] <;> omega
    · rw [if_neg (by omega), if_pos (by omega), payloadEq]
      refine ⟨0x80, 0xBF, rfl, ?_, ?_⟩ <;> simp only [UInt8.reduceToNat] <;> omega

theorem lead?_four {payload next : Nat} (most : payload < 5) (nextSmall : next < 64)
    (shortest : payload = 0 → 16 ≤ next) (noLarger : payload = 4 → next < 16) :
    ∃ low high, lead? (UInt8.ofNat (payload + 240)) = some ⟨payload, 3, low, high⟩ ∧
      low.toNat ≤ next + 128 ∧ next + 128 ≤ high.toNat := by
  have number : (UInt8.ofNat (payload + 240)).toNat = payload + 240 := by
    rw [UInt8.toNat_ofNat']
    omega
  have payloadEq : (payload + 240) % 8 = payload := by omega
  simp only [lead?, UInt8.lt_iff_toNat_lt, ← UInt8.toNat_inj, number, UInt8.reduceToNat]
  rw [if_neg (by omega), if_neg (by omega), if_neg (by omega), if_neg (by omega),
    if_neg (by omega), if_neg (by omega)]
  by_cases zero : payload = 0
  · rw [if_pos (by omega)]
    refine ⟨0x90, 0xBF, by rw [zero], ?_, ?_⟩ <;> simp only [UInt8.reduceToNat] <;> omega
  · rw [if_neg (by omega)]
    by_cases four : payload = 4
    · rw [if_neg (by omega), if_pos (by omega)]
      refine ⟨0x80, 0x8F, by rw [four], ?_, ?_⟩ <;> simp only [UInt8.reduceToNat] <;> omega
    · rw [if_pos (by omega), payloadEq]
      refine ⟨0x80, 0xBF, rfl, ?_, ?_⟩ <;> simp only [UInt8.reduceToNat] <;> omega

/-! ## Characters and texts -/

theorem pieces_cons {byte : UInt8} {lead : Lead} {rest after : Bytes} {c : Char}
    (announced : lead? byte = some lead)
    (followed : follow lead.following lead.low lead.high lead.payload rest = (some c, after)) :
    pieces (byte :: rest) = some c :: pieces after := by
  rw [pieces, announced]
  simp only [followed]

theorem pieces_encodeChar (c : Char) (rest : Bytes) :
    pieces (String.utf8EncodeChar c ++ rest) = some c :: pieces rest := by
  have valid : c.val.toNat.isValidChar := c.valid
  have same : Char.ofNat c.val.toNat = c := Char.ofNat_toNat c
  simp only [String.utf8EncodeChar]
  generalize c.val.toNat = value at valid same
  have bounds : value < 0xD800 ∨ 0xDFFF < value ∧ value < 0x110000 := valid
  rw [← same]
  by_cases one : value ≤ 127
  · rw [if_pos one]
    exact pieces_cons (lead?_one one) rfl
  · rw [if_neg one]
    by_cases two : value ≤ 2047
    · have first : value / 64 % 32 = value / 64 := by omega
      have joined : value / 64 * 64 + value % 64 = value := by omega
      rw [if_pos two, first, List.cons_append, List.singleton_append]
      refine pieces_cons (lead?_two (by omega) (by omega)) ?_
      rw [follow_later, follow, joined]
    · rw [if_neg two]
      by_cases three : value ≤ 65535
      · have first : value / 4096 % 16 = value / 4096 := by omega
        have joined : (value / 4096 * 64 + value / 64 % 64) * 64 + value % 64 = value := by omega
        have most : value / 4096 < 16 := by omega
        have nextSmall : value / 64 % 64 < 64 := by omega
        obtain ⟨low, high, announced, above, below⟩ :=
          lead?_three most nextSmall (by omega) (by omega)
        rw [if_pos three, first, List.cons_append, List.cons_append, List.singleton_append]
        refine pieces_cons announced ?_
        rw [follow_continuation above below, follow_later, follow, joined]
      · have first : value / 262144 % 8 = value / 262144 := by omega
        have joined : ((value / 262144 * 64 + value / 4096 % 64) * 64 + value / 64 % 64) * 64 +
            value % 64 = value := by omega
        have most : value / 262144 < 5 := by omega
        have nextSmall : value / 4096 % 64 < 64 := by omega
        obtain ⟨low, high, announced, above, below⟩ :=
          lead?_four most nextSmall (by omega) (by omega)
        rw [if_neg three, first, List.cons_append, List.cons_append, List.cons_append,
          List.singleton_append]
        refine pieces_cons announced ?_
        rw [follow_continuation above below, follow_later, follow_later, follow, joined]

theorem pieces_encode (text : List Char) : pieces (encode text) = text.map some := by
  induction text with
  | nil =>
      rw [encode, List.flatMap_nil, pieces]
      rfl
  | cons c rest inductionHypothesis =>
      rw [encode_cons, pieces_encodeChar, inductionHypothesis, List.map_cons]

theorem decode?_encode (text : List Char) : decode? (encode text) = some text := by
  rw [decode?, pieces_encode]
  induction text with
  | nil => rfl
  | cons c rest inductionHypothesis =>
      rw [List.map_cons, List.mapM_cons, inductionHypothesis]
      rfl

theorem decodeLossy_encode (text : List Char) : decodeLossy (encode text) = text := by
  rw [decodeLossy, pieces_encode, List.map_map]
  exact List.map_id text

theorem encode_inj {first second : List Char} (same : encode first = encode second) :
    first = second := by
  have decoded := decode?_encode first
  rw [same, decode?_encode] at decoded
  exact (Option.some.inj decoded).symm

end ByteListing.Utf8
