import LumidPlatform.Text

/-!
# Reading bytes back

Replacing what is ill-formed changes nothing of a text that is well-formed: every text reads
back from its bytes.
-/

namespace LumidPlatform.Text

theorem toNat_byte {n : Nat} (byte : n < 256) : (UInt8.ofNat n).toNat = n := by
  rw [UInt8.toNat_ofNat', Nat.mod_eq_of_lt byte]

theorem byte_le {n m : Nat} (byte : n < 256) (other : m < 256) :
    UInt8.ofNat n ≤ UInt8.ofNat m ↔ n ≤ m := by
  rw [UInt8.le_iff_toNat_le, toNat_byte byte, toNat_byte other]

theorem byte_lt {n m : Nat} (byte : n < 256) (other : m < 256) :
    UInt8.ofNat n < UInt8.ofNat m ↔ n < m := by
  rw [UInt8.lt_iff_toNat_lt, toNat_byte byte, toNat_byte other]

theorem byte_eq {n m : Nat} (byte : n < 256) (other : m < 256) :
    UInt8.ofNat n = UInt8.ofNat m ↔ n = m := by
  rw [← UInt8.toNat_inj, toNat_byte byte, toNat_byte other]

theorem byte_between {low n high : Nat} (below : low ≤ n) (above : n ≤ high) (byte : high < 256) :
    (decide (UInt8.ofNat low ≤ UInt8.ofNat n) && decide (UInt8.ofNat n ≤ UInt8.ofNat high)) =
      true := by
  rw [Bool.and_eq_true, decide_eq_true_eq, decide_eq_true_eq, byte_le (by omega) (by omega),
    byte_le (by omega) byte]
  exact ⟨below, above⟩

theorem byte_not_between {low n high : Nat} (outside : high < n) (byte : n < 256) :
    ¬(decide (UInt8.ofNat low ≤ UInt8.ofNat n) && decide (UInt8.ofNat n ≤ UInt8.ofNat high)) =
      true := by
  rw [Bool.and_eq_true, decide_eq_true_eq, decide_eq_true_eq, byte_le (by omega) (by omega) (m := high)]
  exact fun both => absurd both.2 (by omega)

theorem byte_not_low {n : Nat} (high : 0x80 ≤ n) (byte : n < 256) : ¬UInt8.ofNat n < 0x80 :=
  fun low => absurd ((@byte_lt n 0x80 byte (by decide)).mp low) (Nat.not_lt.mpr high)

theorem isContinuation_byte {n : Nat} (low : 0x80 ≤ n) (high : n ≤ 0xBF) :
    isContinuation (UInt8.ofNat n) = true :=
  byte_between low high (by decide)

/-- The second byte of a long sequence, where no shorter sequence and no surrogate is spelled. -/
theorem secondByteFits_byte {first second : Nat} (byte : first < 256) (low : 0x80 ≤ second)
    (high : second ≤ 0xBF) (long : first = 0xE0 → 0xA0 ≤ second)
    (surrogate : first = 0xED → second ≤ 0x9F) (longer : first = 0xF0 → 0x90 ≤ second)
    (last : first = 0xF4 → second ≤ 0x8F) :
    secondByteFits (UInt8.ofNat first) (UInt8.ofNat second) = true := by
  have eq (n : Nat) (small : n < 256) : UInt8.ofNat first = UInt8.ofNat n ↔ first = n :=
    byte_eq byte small
  rw [secondByteFits]
  split_ifs with e0 ed f0 f4
  · exact byte_between (long ((eq 0xE0 (by decide)).mp e0)) high (by decide)
  · exact byte_between low (surrogate ((eq 0xED (by decide)).mp ed)) (by decide)
  · exact byte_between (longer ((eq 0xF0 (by decide)).mp f0)) high (by decide)
  · exact byte_between low (last ((eq 0xF4 (by decide)).mp f4)) (by decide)
  · exact byte_between low high (by decide)

/-! ## Sequences -/

theorem fromUtf8Lossy_two {n m : Nat} (lead : 0xC2 ≤ n ∧ n ≤ 0xDF) (follow : 0x80 ≤ m ∧ m ≤ 0xBF)
    (rest : Bytes) : fromUtf8Lossy (UInt8.ofNat n :: UInt8.ofNat m :: rest) =
      Char.ofNat ((n - 0xC0) * 64 + (m - 0x80)) :: fromUtf8Lossy rest := by
  have begins : (decide (0xC2 ≤ UInt8.ofNat n) && decide (UInt8.ofNat n ≤ 0xDF)) = true :=
    byte_between lead.1 lead.2 (by decide)
  rw [fromUtf8Lossy.eq_def]
  simp only [if_neg (byte_not_low (by omega : 0x80 ≤ n) (by omega)), if_pos begins,
    if_pos (isContinuation_byte follow.1 follow.2), toNat_byte (by omega : n < 256),
    toNat_byte (by omega : m < 256)]

theorem fromUtf8Lossy_three {n m k : Nat} (lead : 0xE0 ≤ n ∧ n ≤ 0xEF)
    (fits : secondByteFits (UInt8.ofNat n) (UInt8.ofNat m) = true) (byte : m < 256)
    (follow : 0x80 ≤ k ∧ k ≤ 0xBF) (rest : Bytes) :
    fromUtf8Lossy (UInt8.ofNat n :: UInt8.ofNat m :: UInt8.ofNat k :: rest) =
      Char.ofNat ((n - 0xE0) * 4096 + (m - 0x80) * 64 + (k - 0x80)) :: fromUtf8Lossy rest := by
  have begins : (decide (0xE0 ≤ UInt8.ofNat n) && decide (UInt8.ofNat n ≤ 0xEF)) = true :=
    byte_between lead.1 lead.2 (by decide)
  have longer : ¬(decide (0xC2 ≤ UInt8.ofNat n) && decide (UInt8.ofNat n ≤ 0xDF)) = true :=
    @byte_not_between 0xC2 n 0xDF (by omega) (by omega)
  rw [fromUtf8Lossy.eq_def]
  simp only [if_neg (byte_not_low (by omega : 0x80 ≤ n) (by omega)), if_neg longer,
    if_pos begins, if_pos fits, if_pos (isContinuation_byte follow.1 follow.2),
    toNat_byte (by omega : n < 256), toNat_byte byte, toNat_byte (by omega : k < 256)]

theorem fromUtf8Lossy_four {n m k j : Nat} (lead : 0xF0 ≤ n ∧ n ≤ 0xF4)
    (fits : secondByteFits (UInt8.ofNat n) (UInt8.ofNat m) = true) (byte : m < 256)
    (third : 0x80 ≤ k ∧ k ≤ 0xBF) (follow : 0x80 ≤ j ∧ j ≤ 0xBF) (rest : Bytes) :
    fromUtf8Lossy (UInt8.ofNat n :: UInt8.ofNat m :: UInt8.ofNat k :: UInt8.ofNat j :: rest) =
      Char.ofNat ((n - 0xF0) * 262144 + (m - 0x80) * 4096 + (k - 0x80) * 64 + (j - 0x80)) ::
        fromUtf8Lossy rest := by
  have begins : (decide (0xF0 ≤ UInt8.ofNat n) && decide (UInt8.ofNat n ≤ 0xF4)) = true :=
    byte_between lead.1 lead.2 (by decide)
  have long : ¬(decide (0xC2 ≤ UInt8.ofNat n) && decide (UInt8.ofNat n ≤ 0xDF)) = true :=
    @byte_not_between 0xC2 n 0xDF (by omega) (by omega)
  have longer : ¬(decide (0xE0 ≤ UInt8.ofNat n) && decide (UInt8.ofNat n ≤ 0xEF)) = true :=
    @byte_not_between 0xE0 n 0xEF (by omega) (by omega)
  rw [fromUtf8Lossy.eq_def]
  simp only [if_neg (byte_not_low (by omega : 0x80 ≤ n) (by omega)), if_neg long, if_neg longer,
    if_pos begins, if_pos fits, if_pos (isContinuation_byte third.1 third.2),
    if_pos (isContinuation_byte follow.1 follow.2), toNat_byte (by omega : n < 256),
    toNat_byte byte, toNat_byte (by omega : k < 256), toNat_byte (by omega : j < 256)]

/-- A character is read from its bytes, and then the rest is. -/
theorem fromUtf8Lossy_encode (c : Char) (rest : Bytes) :
    fromUtf8Lossy (String.utf8EncodeChar c ++ rest) = c :: fromUtf8Lossy rest := by
  have valid : c.val.toNat < 0xD800 ∨ 0xDFFF < c.val.toNat ∧ c.val.toNat < 0x110000 := c.valid
  have code : Char.ofNat c.val.toNat = c := Char.ofNat_toNat c
  generalize value : c.val.toNat = v at valid code
  simp only [String.utf8EncodeChar, value]
  by_cases one : v ≤ 0x7F
  · have low : UInt8.ofNat v < 0x80 := (@byte_lt v 0x80 (by omega) (by decide)).mpr (by omega)
    rw [if_pos one, List.singleton_append, fromUtf8Lossy_low low, toNat_byte (by omega), code]
  rw [if_neg one]
  by_cases two : v ≤ 0x7FF
  · rw [if_pos two, List.cons_append, List.cons_append, List.nil_append,
      fromUtf8Lossy_two (by omega) (by omega)]
    have sum : (v / 64 % 32 + 0xC0 - 0xC0) * 64 + (v % 64 + 0x80 - 0x80) = v := by omega
    rw [sum, code]
  rw [if_neg two]
  by_cases three : v ≤ 0xFFFF
  · rw [if_pos three]
    have fits : secondByteFits (UInt8.ofNat (v / 4096 % 16 + 0xE0))
        (UInt8.ofNat (v / 64 % 64 + 0x80)) = true :=
      secondByteFits_byte (by omega) (by omega) (by omega) (by omega) (by omega) (by omega)
        (by omega)
    simp only [List.cons_append, List.nil_append]
    rw [fromUtf8Lossy_three (by omega) fits (by omega) (by omega)]
    have sum : (v / 4096 % 16 + 0xE0 - 0xE0) * 4096 + (v / 64 % 64 + 0x80 - 0x80) * 64 +
        (v % 64 + 0x80 - 0x80) = v := by omega
    rw [sum, code]
  · rw [if_neg three]
    have fits : secondByteFits (UInt8.ofNat (v / 262144 % 8 + 0xF0))
        (UInt8.ofNat (v / 4096 % 64 + 0x80)) = true :=
      secondByteFits_byte (by omega) (by omega) (by omega) (by omega) (by omega) (by omega)
        (by omega)
    simp only [List.cons_append, List.nil_append]
    rw [fromUtf8Lossy_four (by omega) fits (by omega) (by omega) (by omega)]
    have sum : (v / 262144 % 8 + 0xF0 - 0xF0) * 262144 + (v / 4096 % 64 + 0x80 - 0x80) * 4096 +
        (v / 64 % 64 + 0x80 - 0x80) * 64 + (v % 64 + 0x80 - 0x80) = v := by omega
    rw [sum, code]

/-- Every text reads back from its bytes. -/
theorem fromUtf8Lossy_utf8_self (s : Str) : fromUtf8Lossy (utf8 s) = s := by
  induction s with
  | nil => rfl
  | cons c rest inductionHypothesis =>
    rw [utf8_cons, fromUtf8Lossy_encode, inductionHypothesis]

/-! ## Bytes of a character -/

theorem not_continuation_byte {n : Nat} (outside : n < 0x80 ∨ 0xBF < n) (byte : n < 256) :
    isContinuation (UInt8.ofNat n) = false := by
  have low := @byte_le 0x80 n (by decide) byte
  have high := @byte_le n 0xBF byte (by decide)
  rw [isContinuation, Bool.and_eq_false_iff, decide_eq_false_iff_not, decide_eq_false_iff_not]
  rcases outside with below | above
  · exact Or.inl (fun le => absurd (low.mp le) (by omega))
  · exact Or.inr (fun le => absurd (high.mp le) (by omega))

/-- The first byte of a character does not continue one, and all others do. The first byte of a
character beyond ASCII is no ASCII character. -/
theorem encode_shape (c : Char) : ∃ lead tail, String.utf8EncodeChar c = lead :: tail ∧
    isContinuation lead = false ∧ (∀ b ∈ tail, isContinuation b = true) ∧
      ∀ n < 128, lead = UInt8.ofNat n ↔ c.val.toNat = n := by
  have valid : c.val.toNat < 0xD800 ∨ 0xDFFF < c.val.toNat ∧ c.val.toNat < 0x110000 := c.valid
  generalize value : c.val.toNat = v at valid
  have foreign {n : Nat} (high : 0x80 ≤ n) (byte : n < 256) (beyond : ¬v ≤ 0x7F) :
      ∀ m < 128, UInt8.ofNat n = UInt8.ofNat m ↔ v = m := by
    intro m small
    rw [byte_eq byte (by omega)]
    omega
  simp only [String.utf8EncodeChar, value]
  by_cases one : v ≤ 0x7F
  · rw [if_pos one]
    refine ⟨_, _, rfl, not_continuation_byte (by omega) (by omega), by simp, ?_⟩
    intro m small
    exact byte_eq (by omega) (by omega)
  rw [if_neg one]
  by_cases two : v ≤ 0x7FF
  · rw [if_pos two]
    refine ⟨_, _, rfl, not_continuation_byte (by omega) (by omega), ?_,
      foreign (by omega) (by omega) one⟩
    exact List.forall_mem_singleton.mpr (isContinuation_byte (by omega) (by omega))
  rw [if_neg two]
  by_cases three : v ≤ 0xFFFF
  · rw [if_pos three]
    refine ⟨_, _, rfl, not_continuation_byte (by omega) (by omega), ?_,
      foreign (by omega) (by omega) one⟩
    exact List.forall_mem_cons.mpr ⟨isContinuation_byte (by omega) (by omega),
      List.forall_mem_singleton.mpr (isContinuation_byte (by omega) (by omega))⟩
  · rw [if_neg three]
    refine ⟨_, _, rfl, not_continuation_byte (by omega) (by omega), ?_,
      foreign (by omega) (by omega) one⟩
    exact List.forall_mem_cons.mpr ⟨isContinuation_byte (by omega) (by omega),
      List.forall_mem_cons.mpr ⟨isContinuation_byte (by omega) (by omega),
        List.forall_mem_singleton.mpr (isContinuation_byte (by omega) (by omega))⟩⟩

end LumidPlatform.Text
