import Mathlib.Algebra.Order.Field.Power
import Mathlib.Tactic.Linarith
import Mathlib.Tactic.Positivity
import Mathlib.Tactic.NormNum
import LumidPlatform.Numbers

/-!
# Rounding never crosses a representable number

An `f64` is a whole significand below `2 ^ 53` times a power of two whose
exponent is at least `-1074`. The conversion of a rational number is a rounding
of its significand at a chosen exponent, so a representable number at one side
of the original stands at the same side of the rounded one, or meets it.
-/

namespace LumidPlatform.F64

/-! ## Powers of two -/

/-- Powers of two are positive. -/
theorem two_zpow_pos (exponent : Int) : (0 : ℚ) < 2 ^ exponent := by
  positivity

/-- They grow with their exponent. -/
theorem two_zpow_le {low high : Int} (ordered : low ≤ high) :
    (2 : ℚ) ^ low ≤ 2 ^ high :=
  zpow_le_zpow_right₀ (by norm_num) ordered

/-- A difference of exponents that is not negative counts a whole power. -/
theorem two_zpow_split {low high : Int} (ordered : low ≤ high) :
    (2 : ℚ) ^ high = ((2 ^ (high - low).toNat : Nat) : ℚ) * 2 ^ low := by
  have whole : ((2 ^ (high - low).toNat : Nat) : ℚ) = (2 : ℚ) ^ (high - low) := by
    rw [Nat.cast_pow, Nat.cast_ofNat, ← zpow_natCast, Int.toNat_of_nonneg (by omega)]
  rw [whole, ← zpow_add₀ (by norm_num)]
  congr 1
  omega

/-- A natural number lies between two neighbouring powers of its bit length. -/
theorem nat_log2_spec {n : Nat} (nonzero : n ≠ 0) :
    (2 : ℚ) ^ (Nat.log2 n : Int) ≤ n ∧ (n : ℚ) < 2 ^ ((Nat.log2 n : Int) + 1) := by
  constructor
  · rw [zpow_natCast]
    exact_mod_cast Nat.log2_self_le nonzero
  · have bound := Nat.lt_log2_self (n := n)
    have successor : (Nat.log2 n : Int) + 1 = ((Nat.log2 n + 1 : Nat) : Int) := by push_cast; rfl
    rw [successor, zpow_natCast]
    exact_mod_cast bound

/-- A positive number is its numerator over its denominator, both natural. -/
theorem numerator_eq {q : ℚ} (positive : 0 < q) : (q.num.natAbs : ℚ) = q * q.den := by
  have cast : (q.num.natAbs : ℚ) = (q.num : ℚ) := by
    rw [Nat.cast_natAbs, abs_of_pos (Rat.num_pos.mpr positive)]
  rw [cast, Rat.mul_den_eq_num]

/-- The exponent found from the bit lengths of numerator and denominator is the
largest one whose power does not exceed the number. -/
theorem log2_spec {q : ℚ} (positive : 0 < q) :
    (2 : ℚ) ^ log2 q ≤ q ∧ q < 2 ^ (log2 q + 1) := by
  have numerator_pos : q.num.natAbs ≠ 0 := by
    have := Rat.num_pos.mpr positive
    omega
  obtain ⟨numerator_low, numerator_high⟩ := nat_log2_spec numerator_pos
  obtain ⟨denominator_low, denominator_high⟩ := nat_log2_spec q.den_pos.ne'
  have numerator := numerator_eq positive
  unfold log2
  set high : Int := (Nat.log2 q.num.natAbs : Int)
  set low : Int := (Nat.log2 q.den : Int)
  have upper : q < 2 ^ (high - low + 1) := by
    rw [show high - low + 1 = (high + 1) - low by ring, zpow_sub₀ (by norm_num),
      lt_div_iff₀ (two_zpow_pos low)]
    calc q * 2 ^ low ≤ q * q.den := by gcongr
      _ = q.num.natAbs := numerator.symm
      _ < 2 ^ (high + 1) := numerator_high
  have lower : (2 : ℚ) ^ (high - low - 1) ≤ q := by
    rw [show high - low - 1 = high - (low + 1) by ring, zpow_sub₀ (by norm_num),
      div_le_iff₀ (two_zpow_pos (low + 1))]
    calc (2 : ℚ) ^ high ≤ q.num.natAbs := numerator_low
      _ = q * q.den := numerator
      _ ≤ q * 2 ^ (low + 1) := by gcongr
  by_cases reached : (2 : ℚ) ^ (high - low) ≤ q
  · rw [if_pos reached]
    exact ⟨reached, upper⟩
  · rw [if_neg reached]
    exact ⟨lower, by simpa using reached⟩

/-! ## Rounding to a whole number -/

/-- A whole number at or below the original is at or below the rounded one. -/
theorem le_roundHalfEven {q : ℚ} {whole : Nat} (below : (whole : ℚ) ≤ q) :
    whole ≤ roundHalfEven q := by
  have reached : whole ≤ q.floor.toNat := by
    have : (whole : Int) ≤ q.floor := Rat.le_floor_iff.mpr (by exact_mod_cast below)
    omega
  simp only [roundHalfEven]
  split_ifs <;> omega

/-- A whole number at or above the original is at or above the rounded one. -/
theorem roundHalfEven_le {q : ℚ} {whole : Nat} (nonneg : 0 ≤ q) (above : q ≤ (whole : ℚ)) :
    roundHalfEven q ≤ whole := by
  have floor_nonneg : 0 ≤ q.floor := Rat.le_floor_iff.mpr (by exact_mod_cast nonneg)
  have reached : q.floor.toNat ≤ whole := by
    have : (q.floor : ℚ) ≤ whole := (Rat.floor_le q).trans above
    have : q.floor ≤ (whole : Int) := by exact_mod_cast this
    omega
  simp only [roundHalfEven]
  rcases reached.lt_or_eq with short | exactly
  · split_ifs <;> omega
  · have near : q - (q.floor.toNat : ℚ) < 1 / 2 := by
      rw [exactly]
      linarith
    rw [if_pos near]
    exact reached

/-! ## Bits and numbers -/

/-- The largest magnitude of all, which stands for infinity. -/
def limit : ℚ := 2 ^ (1024 : Int)

/-- The limit of the format, as a power. -/
theorem limit_eq : (2 : ℚ) ^ 1024 = limit :=
  (zpow_natCast 2 1024).symm

/-- The limit over a power of two is a whole number. -/
theorem limit_split (exponent : Int) (low : exponent ≤ 1024) :
    limit = ((2 ^ (1024 - exponent).toNat : Nat) : ℚ) * 2 ^ exponent :=
  two_zpow_split low

/-- The number that an exponent and a significand of the encoding below stand for. -/
theorem magnitude_encoded {sign : Nat} (exponent significand : Nat)
    (signed : sign = 0 ∨ sign = 2 ^ 63) (short : significand ≤ 2 ^ 53)
    (normal : 0 < exponent → 2 ^ 52 ≤ significand)
    (finite : exponent * 2 ^ 52 + significand < 2047 * 2 ^ 52) :
    (F64.mk (BitVec.ofNat 64 (sign + (exponent * 2 ^ 52 + significand)))).magnitude =
      significand * 2 ^ ((exponent : Int) - 1074) := by
  set encoded := exponent * 2 ^ 52 + significand with encoded_eq
  have stored : (BitVec.ofNat 64 (sign + encoded)).toNat = sign + encoded := by
    rw [BitVec.toNat_ofNat, Nat.mod_eq_of_lt]
    omega
  have field : (F64.mk (BitVec.ofNat 64 (sign + encoded))).exponentField = encoded / 2 ^ 52 := by
    simp only [exponentField, stored]
    omega
  have rest : (F64.mk (BitVec.ofNat 64 (sign + encoded))).fraction = encoded % 2 ^ 52 := by
    simp only [fraction, stored]
    omega
  have ordinary : encoded / 2 ^ 52 ≠ 2047 := by omega
  unfold magnitude
  rw [field, rest, if_neg ordinary]
  -- the significand may be subnormal, fill its place exactly, or carry into the exponent
  obtain subnormal | exact | carried :
      significand < 2 ^ 52 ∨ (2 ^ 52 ≤ significand ∧ significand < 2 ^ 53) ∨
        significand = 2 ^ 53 := by omega
  · have lowest : exponent = 0 := by omega
    subst lowest
    have zero : encoded / 2 ^ 52 = 0 := by omega
    have whole : encoded % 2 ^ 52 = significand := by omega
    rw [if_pos zero, whole]
    norm_num
  · have next : encoded / 2 ^ 52 = exponent + 1 := by omega
    have whole : 2 ^ 52 + encoded % 2 ^ 52 = significand := by omega
    rw [next, if_neg (by omega)]
    have cast : (2 ^ 52 + ((encoded % 2 ^ 52 : Nat) : ℚ)) = significand := by
      exact_mod_cast congrArg (Nat.cast : Nat → ℚ) whole
    rw [cast]
    congr 2
    push_cast
    ring
  · have next : encoded / 2 ^ 52 = exponent + 2 := by omega
    have whole : encoded % 2 ^ 52 = 0 := by omega
    rw [next, if_neg (by omega), whole, carried]
    have shift : ((exponent + 2 : Nat) : Int) - 1075 = 1 + ((exponent : Int) - 1074) := by
      push_cast
      ring
    rw [shift, zpow_add₀ (by norm_num)]
    push_cast
    ring

/-- Every magnitude is a short significand times a power of two that is not too low. -/
theorem magnitude_shape (x : F64) :
    ∃ (significand : Nat) (exponent : Int),
      x.magnitude = significand * 2 ^ exponent ∧ significand < 2 ^ 53 ∧ -1074 ≤ exponent := by
  have short : x.fraction < 2 ^ 52 := Nat.mod_lt _ (by norm_num)
  unfold magnitude
  split_ifs with special zero
  · exact ⟨2 ^ 52, 972, limit_eq.trans (limit_split 972 (by norm_num)), by norm_num, by norm_num⟩
  · exact ⟨x.fraction, -1074, rfl, by omega, le_refl _⟩
  · exact ⟨2 ^ 52 + x.fraction, (x.exponentField : Int) - 1075, by push_cast; rfl, by omega,
      by omega⟩

/-- Magnitudes are not negative. -/
theorem magnitude_nonneg (x : F64) : 0 ≤ x.magnitude := by
  obtain ⟨significand, exponent, value, _, _⟩ := magnitude_shape x
  rw [value]
  positivity

/-- No magnitude is above that of infinity. -/
theorem magnitude_le_limit (x : F64) : x.magnitude ≤ limit := by
  have short : x.fraction < 2 ^ 52 := Nat.mod_lt _ (by norm_num)
  have field : x.exponentField < 2048 := Nat.mod_lt _ (by norm_num)
  unfold magnitude
  split_ifs with special zero
  · exact limit_eq.le
  · rw [limit_split (-1074) (by norm_num)]
    gcongr
    exact short.le.trans (Nat.pow_le_pow_right (by norm_num) (by norm_num))
  · rw [limit_split 971 (by norm_num)]
    have significand : (2 : ℚ) ^ 52 + x.fraction ≤ ((2 ^ 53 : Nat) : ℚ) := by
      exact_mod_cast (by omega : 2 ^ 52 + x.fraction ≤ 2 ^ 53)
    exact mul_le_mul significand (two_zpow_le (by omega)) (two_zpow_pos _).le (by positivity)

/-! ## The number a conversion finds -/

/-- The exponent at which a positive number is rounded. -/
def chosenExponent (q : ℚ) : Int := max (log2 q - 52) (-1074)

/-- The significand to the chosen exponent, rounded half to even. -/
def chosenSignificand (q : ℚ) : Nat := roundHalfEven (q / 2 ^ chosenExponent q)

/-- The bits below the sign. -/
def encoding (q : ℚ) : Nat := (chosenExponent q + 1074).toNat * 2 ^ 52 + chosenSignificand q

/-- The bit of the sign, in its place. -/
def signBit (negative : Bool) : Nat := if negative then 2 ^ 63 else 0

/-- It is one of two. -/
theorem signBit_cases (negative : Bool) : signBit negative = 0 ∨ signBit negative = 2 ^ 63 := by
  cases negative <;> simp [signBit]

/-- A magnitude is rounded to its encoding, or to infinity from the limit on. -/
theorem ofMagnitude_eq {q : ℚ} (negative : Bool) (nonzero : q ≠ 0) :
    ofMagnitude negative q =
      if 2047 * 2 ^ 52 ≤ encoding q then infinity negative
      else ⟨BitVec.ofNat 64 (signBit negative + encoding q)⟩ := by
  unfold ofMagnitude
  rw [if_neg nonzero]
  rfl

/-- The rounded number, before an overflow turns it into infinity. -/
def rounded (q : ℚ) : ℚ := chosenSignificand q * 2 ^ chosenExponent q

/-- The scaled number fits its place, and fills it unless the exponent is the lowest. -/
theorem scaled_spec {q : ℚ} (positive : 0 < q) :
    q / 2 ^ chosenExponent q ≤ ((2 ^ 53 : Nat) : ℚ) ∧
      (-1074 < chosenExponent q → ((2 ^ 52 : Nat) : ℚ) ≤ q / 2 ^ chosenExponent q) := by
  obtain ⟨low, high⟩ := log2_spec positive
  constructor
  · rw [div_le_iff₀ (two_zpow_pos _)]
    have room : log2 q + 1 ≤ 53 + chosenExponent q := by
      have := le_max_left (log2 q - 52) (-1074)
      unfold chosenExponent
      omega
    calc q ≤ 2 ^ (log2 q + 1) := high.le
      _ ≤ 2 ^ (53 + chosenExponent q) := two_zpow_le room
      _ = ((2 ^ 53 : Nat) : ℚ) * 2 ^ chosenExponent q := by
        rw [zpow_add₀ (by norm_num)]
        norm_num
  · intro above
    have exact : chosenExponent q = log2 q - 52 := by
      unfold chosenExponent at above ⊢
      omega
    rw [le_div_iff₀ (two_zpow_pos _), exact]
    calc ((2 ^ 52 : Nat) : ℚ) * 2 ^ (log2 q - 52) = 2 ^ (52 + (log2 q - 52)) := by
          rw [zpow_add₀ (by norm_num)]
          norm_num
      _ = 2 ^ log2 q := by congr 1; omega
      _ ≤ q := low

/-- A significand has at most 53 bits, or is the next power of two. -/
theorem chosenSignificand_le {q : ℚ} (positive : 0 < q) : chosenSignificand q ≤ 2 ^ 53 :=
  roundHalfEven_le (div_nonneg positive.le (two_zpow_pos _).le) (scaled_spec positive).1

/-- Above the lowest exponent it has all of them. -/
theorem le_chosenSignificand {q : ℚ} (positive : 0 < q) (above : -1074 < chosenExponent q) :
    2 ^ 52 ≤ chosenSignificand q :=
  le_roundHalfEven ((scaled_spec positive).2 above)

/-- No exponent is lower than that of the smallest float. -/
theorem lowest_le_chosenExponent (q : ℚ) : -1074 ≤ chosenExponent q :=
  le_max_right _ _

/-- An encoding past the last finite one is that of a number at or above the limit. -/
theorem limit_le_rounded {q : ℚ} (positive : 0 < q) (overflow : 2047 * 2 ^ 52 ≤ encoding q) :
    limit ≤ rounded q := by
  have short := chosenSignificand_le positive
  have lowest := lowest_le_chosenExponent q
  unfold encoding at overflow
  have filled := le_chosenSignificand positive (by omega)
  obtain carried | large :
      (971 = chosenExponent q ∧ chosenSignificand q = 2 ^ 53) ∨ 972 ≤ chosenExponent q := by
    omega
  · obtain ⟨exponent, significand⟩ := carried
    unfold rounded
    rw [significand, ← exponent]
    exact (limit_split 971 (by norm_num)).le
  · rw [limit_split 972 (by norm_num)]
    have significand : ((2 ^ 52 : Nat) : ℚ) ≤ chosenSignificand q := by exact_mod_cast filled
    exact mul_le_mul significand (two_zpow_le large) (two_zpow_pos _).le (by positivity)

/-- The magnitude found is the rounded number, cut off at the limit. -/
theorem magnitude_ofMagnitude {q : ℚ} (negative : Bool) (positive : 0 < q) :
    (ofMagnitude negative q).magnitude = min (rounded q) limit := by
  rw [ofMagnitude_eq negative positive.ne']
  by_cases overflow : 2047 * 2 ^ 52 ≤ encoding q
  · rw [if_pos overflow, min_eq_right (limit_le_rounded positive overflow), ← limit_eq]
    cases negative <;> rfl
  · rw [if_neg overflow]
    have lowest := lowest_le_chosenExponent q
    have decoded := magnitude_encoded (chosenExponent q + 1074).toNat (chosenSignificand q)
      (signBit_cases negative) (chosenSignificand_le positive)
      (fun above => le_chosenSignificand positive (by omega)) (Nat.lt_of_not_le overflow)
    rw [Int.toNat_of_nonneg (by omega), add_sub_cancel_right] at decoded
    have found : (F64.mk (BitVec.ofNat 64 (signBit negative + encoding q))).magnitude =
        rounded q := decoded
    have bounded := magnitude_le_limit ⟨BitVec.ofNat 64 (signBit negative + encoding q)⟩
    rw [found] at bounded ⊢
    exact (min_eq_left bounded).symm

/-- Zero is exact. -/
theorem magnitude_ofMagnitude_zero (negative : Bool) :
    (ofMagnitude negative 0).magnitude = 0 := by
  cases negative <;> simp [ofMagnitude, magnitude, exponentField, fraction]

/-! ## The sign -/

/-- Every conversion writes a sign above an encoding that no NaN has. -/
theorem ofMagnitude_bits (negative : Bool) (q : ℚ) :
    ∃ encoded ≤ 2047 * 2 ^ 52,
      ofMagnitude negative q = ⟨BitVec.ofNat 64 (signBit negative + encoded)⟩ := by
  by_cases zero : q = 0
  · refine ⟨0, by omega, ?_⟩
    unfold ofMagnitude
    rw [if_pos zero]
    rfl
  · rw [ofMagnitude_eq negative zero]
    by_cases overflow : 2047 * 2 ^ 52 ≤ encoding q
    · exact ⟨2047 * 2 ^ 52, le_refl _, by rw [if_pos overflow]; rfl⟩
    · exact ⟨encoding q, by omega, if_neg overflow⟩

/-- The sign and the encoding do not overlap. -/
theorem toNat_signed (negative : Bool) {encoded : Nat} (bounded : encoded ≤ 2047 * 2 ^ 52) :
    (BitVec.ofNat 64 (signBit negative + encoded)).toNat = signBit negative + encoded := by
  have := signBit_cases negative
  rw [BitVec.toNat_ofNat, Nat.mod_eq_of_lt]
  omega

/-- The sign given is the sign found. -/
@[simp] theorem negative_ofMagnitude (negative : Bool) (q : ℚ) :
    (ofMagnitude negative q).negative = negative := by
  obtain ⟨encoded, bounded, bits⟩ := ofMagnitude_bits negative q
  rw [bits, F64.negative, BitVec.msb_eq_decide, toNat_signed negative bounded]
  cases negative
  · simp only [signBit, Bool.false_eq_true, if_false, decide_eq_false_iff_not]
    omega
  · simp only [signBit, if_true, decide_eq_true_eq]
    omega

/-- A conversion finds a number. -/
@[simp] theorem isNan_ofMagnitude (negative : Bool) (q : ℚ) :
    (ofMagnitude negative q).isNan = false := by
  obtain ⟨encoded, bounded, bits⟩ := ofMagnitude_bits negative q
  have signed := signBit_cases negative
  simp only [isNan, exponentField, fraction, bits, toNat_signed negative bounded]
  simp only [Bool.and_eq_false_iff, beq_eq_false_iff_ne, bne_eq_false_iff_eq]
  omega

/-! ## Order -/

/-- A significand at one exponent is a longer one at a lower exponent. -/
theorem regrid {low high : Int} (ordered : low ≤ high) (significand : Nat) :
    significand * (2 : ℚ) ^ high =
      ((significand * 2 ^ (high - low).toNat : Nat) : ℚ) * 2 ^ low := by
  rw [two_zpow_split ordered]
  push_cast
  ring

/-- A short significand is below any number whose grid is finer than its own. -/
theorem short_lt {significand : Nat} {low high : Int} (short : significand < 2 ^ 53)
    (finer : low < high) : significand * (2 : ℚ) ^ low < ((2 ^ 52 : Nat) : ℚ) * 2 ^ high := by
  calc significand * (2 : ℚ) ^ low < ((2 ^ 53 : Nat) : ℚ) * 2 ^ low := by
        gcongr
      _ = ((2 ^ 52 : Nat) : ℚ) * 2 ^ (low + 1) := by
        rw [zpow_add₀ (by norm_num)]
        push_cast
        ring
      _ ≤ ((2 ^ 52 : Nat) : ℚ) * 2 ^ high := by
        gcongr
        · norm_num
        · omega

/-- A number with a short significand stays below a number above it that is rounded. -/
theorem le_rounded {q : ℚ} {significand : Nat} {exponent : Int} (positive : 0 < q)
    (short : significand < 2 ^ 53) (lowest : -1074 ≤ exponent)
    (below : significand * (2 : ℚ) ^ exponent ≤ q) :
    significand * (2 : ℚ) ^ exponent ≤ rounded q := by
  unfold rounded
  rcases le_or_gt (chosenExponent q) exponent with coarse | fine
  · rw [regrid coarse] at below ⊢
    have kept := le_roundHalfEven ((le_div_iff₀ (two_zpow_pos _)).mpr below)
    gcongr
    exact kept
  · have filled := le_chosenSignificand positive (by omega)
    calc significand * (2 : ℚ) ^ exponent
        ≤ ((2 ^ 52 : Nat) : ℚ) * 2 ^ chosenExponent q := (short_lt short fine).le
      _ ≤ chosenSignificand q * 2 ^ chosenExponent q := by gcongr

/-- A number with a short significand stays above a number below it that is rounded. -/
theorem rounded_le {q : ℚ} {significand : Nat} {exponent : Int} (positive : 0 < q)
    (short : significand < 2 ^ 53) (lowest : -1074 ≤ exponent)
    (above : q ≤ significand * (2 : ℚ) ^ exponent) :
    rounded q ≤ significand * (2 : ℚ) ^ exponent := by
  unfold rounded
  rcases le_or_gt (chosenExponent q) exponent with coarse | fine
  · rw [regrid coarse] at above ⊢
    have kept := roundHalfEven_le (div_nonneg positive.le (two_zpow_pos _).le)
      ((div_le_iff₀ (two_zpow_pos (chosenExponent q))).mpr above)
    gcongr
    exact kept
  · have filled := (scaled_spec positive).2 (by omega)
    rw [le_div_iff₀ (two_zpow_pos _)] at filled
    have crossed := short_lt short fine
    linarith

/-- An `f64` at or below a number in magnitude is at or below the conversion. -/
theorem magnitude_le_ofMagnitude (x : F64) {q : ℚ} (negative : Bool) (nonneg : 0 ≤ q)
    (below : x.magnitude ≤ q) : x.magnitude ≤ (ofMagnitude negative q).magnitude := by
  rcases nonneg.eq_or_lt with rfl | positive
  · rw [magnitude_ofMagnitude_zero]
    exact below
  · rw [magnitude_ofMagnitude negative positive]
    refine le_min ?_ (magnitude_le_limit x)
    obtain ⟨significand, exponent, value, short, lowest⟩ := magnitude_shape x
    rw [value] at below ⊢
    exact le_rounded positive short lowest below

/-- An `f64` at or above a number in magnitude is at or above the conversion. -/
theorem ofMagnitude_le_magnitude (x : F64) {q : ℚ} (negative : Bool) (nonneg : 0 ≤ q)
    (above : q ≤ x.magnitude) : (ofMagnitude negative q).magnitude ≤ x.magnitude := by
  rcases nonneg.eq_or_lt with rfl | positive
  · rw [magnitude_ofMagnitude_zero]
    exact above
  · rw [magnitude_ofMagnitude negative positive]
    refine min_le_of_left_le ?_
    obtain ⟨significand, exponent, value, short, lowest⟩ := magnitude_shape x
    rw [value] at above ⊢
    exact rounded_le positive short lowest above

/-! ## Whole numbers -/

/-- An integer is rounded by its magnitude, and keeps its sign. -/
theorem value_ofInt (n : Int) :
    (ofInt n).value = if n < 0 then -(ofInt n).magnitude else (ofInt n).magnitude := by
  simp [value, ofInt]

/-- The magnitude of an integer that is not negative. -/
theorem natAbs_of_nonneg {n : Int} (nonneg : 0 ≤ n) : (n.natAbs : ℚ) = n := by
  rw [Nat.cast_natAbs, abs_of_nonneg nonneg]

/-- The magnitude of a negative integer. -/
theorem natAbs_of_neg {n : Int} (negative : n < 0) : (n.natAbs : ℚ) = -n := by
  rw [Nat.cast_natAbs, abs_of_neg negative]
  push_cast
  rfl

/-- An `f64` at or below a whole number is at or below its conversion. -/
theorem le_ofInt (x : F64) {n : Int} (below : x.value ≤ n) : x.value ≤ (ofInt n).value := by
  have nonneg := magnitude_nonneg x
  have converted := magnitude_nonneg (ofInt n)
  rw [value_ofInt]
  unfold value at below ⊢
  by_cases sign : n < 0
  · have under : (n : ℚ) < 0 := by exact_mod_cast sign
    rw [if_pos sign]
    split_ifs at below ⊢ with negative
    · have larger : (n.natAbs : ℚ) ≤ x.magnitude := by
        rw [natAbs_of_neg sign]
        linarith
      exact neg_le_neg (ofMagnitude_le_magnitude x _ (Nat.cast_nonneg _) larger)
    · linarith
  · rw [if_neg sign]
    split_ifs at below ⊢ with negative
    · linarith
    · have smaller : x.magnitude ≤ (n.natAbs : ℚ) := by
        rw [natAbs_of_nonneg (by omega)]
        exact below
      exact magnitude_le_ofMagnitude x _ (Nat.cast_nonneg _) smaller

/-- An `f64` at or above a whole number is at or above its conversion. -/
theorem ofInt_le (x : F64) {n : Int} (above : n ≤ x.value) : (ofInt n).value ≤ x.value := by
  have nonneg := magnitude_nonneg x
  have converted := magnitude_nonneg (ofInt n)
  rw [value_ofInt]
  unfold value at above ⊢
  by_cases sign : n < 0
  · rw [if_pos sign]
    split_ifs at above ⊢ with negative
    · have smaller : x.magnitude ≤ (n.natAbs : ℚ) := by
        rw [natAbs_of_neg sign]
        linarith
      exact neg_le_neg (magnitude_le_ofMagnitude x _ (Nat.cast_nonneg _) smaller)
    · linarith
  · have nonnegative : (0 : ℚ) ≤ n := by exact_mod_cast (by omega : 0 ≤ n)
    rw [if_neg sign]
    have larger : (n.natAbs : ℚ) ≤ x.magnitude := by
      rw [natAbs_of_nonneg (by omega)]
      split_ifs at above <;> linarith
    have kept : (ofInt n).magnitude ≤ x.magnitude :=
      ofMagnitude_le_magnitude x _ (Nat.cast_nonneg _) larger
    split_ifs at above ⊢ with negative
    · linarith
    · exact kept

end LumidPlatform.F64
