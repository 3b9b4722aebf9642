import LumidPlatform.Rounding

/-!
# Decimal texts as numbers

A decimal text names one rational number. Reading it as an `f64` rounds that number, and
the text that an `f64` prints names a number that rounds back to it.
-/

namespace LumidPlatform.F64

/-! ## Reading -/

/-- The number that a decimal text names. -/
def decimalValue : Str → Option ℚ
  | '-' :: rest => (parseDecimal rest).map (-·)
  | rest => parseDecimal rest

/-- The nearest `f64` to a number. -/
def nearest (q : ℚ) : F64 := ofMagnitude (decide (q < 0)) |q|

theorem parseDecimal_nonneg {s : Str} {q : ℚ} (read : parseDecimal s = some q) : 0 ≤ q := by
  simp only [parseDecimal] at read
  split at read
  · cases read
    positivity
  · cases read

/-- A decimal number starts with a digit or with its point. -/
theorem parseDecimal_head {c : Char} {rest : Str} {q : ℚ}
    (read : parseDecimal (c :: rest) = some q) : Text.isAsciiDigit c = true ∨ c = '.' := by
  by_contra other
  obtain ⟨digit, point⟩ := not_or.mp other
  have whole : (c :: rest).takeWhile Text.isAsciiDigit = [] := List.takeWhile_cons_of_neg digit
  have remaining : (c :: rest).dropWhile Text.isAsciiDigit = c :: rest :=
    List.dropWhile_cons_of_neg digit
  rw [parseDecimal, whole, remaining] at read
  split at read
  rename_i decimals tail cut
  split at cut
  · rename_i same
    exact point (List.cons.inj same).1
  · cases cut
    cases read

/-- Neither a digit nor a point begins a special name, in any letter case. -/
theorem asciiLower_of_decimal {c : Char} (start : Text.isAsciiDigit c = true ∨ c = '.') :
    Text.asciiLower c = c ∧ c ≠ 'i' ∧ c ≠ 'n' := by
  rcases start with digit | rfl
  · have bounds : 48 ≤ c.toNat ∧ c.toNat ≤ 57 := by simpa [Text.isAsciiDigit] using digit
    have small : Text.isAsciiUpper c = false := by
      simp only [Text.isAsciiUpper, Bool.and_eq_false_iff, decide_eq_false_iff_not]
      omega
    refine ⟨by rw [Text.asciiLower, small]; rfl, ?_, ?_⟩
    · rintro rfl
      exact absurd digit (by decide)
    · rintro rfl
      exact absurd digit (by decide)
  · exact ⟨rfl, by decide, by decide⟩

/-- No decimal number is a special name. -/
theorem parseUnsigned_of_decimal {s : Str} {q : ℚ} (negative : Bool)
    (read : parseDecimal s = some q) : parseUnsigned negative s = some (ofMagnitude negative q) := by
  have plain : ∀ name : Str, name.head? = some 'i' ∨ name.head? = some 'n' →
      Text.toAsciiLowercase s ≠ name := by
    rintro name special rfl
    cases s with
    | nil => rcases special with absent | absent <;> cases absent
    | cons c others =>
      obtain ⟨kept, notI, notN⟩ := asciiLower_of_decimal (parseDecimal_head read)
      rw [Text.toAsciiLowercase, List.map_cons, List.head?_cons, kept] at special
      rcases special with first | first
      · exact notI (Option.some.inj first)
      · exact notN (Option.some.inj first)
  unfold parseUnsigned
  dsimp only
  rw [if_neg (not_or.mpr ⟨plain "inf".str (.inl (by decide)),
      plain "infinity".str (.inl (by decide))⟩),
    if_neg (plain "nan".str (.inr (by decide))), read, Option.map_some]

/-- Reading a decimal text rounds the number it names. -/
theorem parse_of_decimalValue {s : Str} {q : ℚ} (named : decimalValue s = some q)
    (nonzero : q ≠ 0) : parse s = some (nearest q) := by
  unfold decimalValue at named
  split at named
  · rename_i rest
    obtain ⟨size, read, rfl⟩ := Option.map_eq_some_iff.mp named
    have nonneg := parseDecimal_nonneg read
    have below : -size < 0 := by
      rcases nonneg.eq_or_lt with rfl | positive
      · exact absurd neg_zero nonzero
      · linarith
    rw [parse, parseUnsigned_of_decimal true read, nearest, abs_neg, abs_of_nonneg nonneg,
      decide_eq_true below]
  · rename_i signless
    have nonneg := parseDecimal_nonneg named
    have found : nearest q = ofMagnitude false q := by
      rw [nearest, abs_of_nonneg nonneg, decide_eq_false (not_lt.mpr nonneg)]
    rw [found, ← parseUnsigned_of_decimal false named]
    unfold parse
    split
    · exact absurd rfl (signless _)
    · exact absurd (parseDecimal_head named) (by decide)
    · rfl

/-! ## Printing -/

/-- Digits alone name a whole number. -/
theorem parseDecimal_whole {s : Str} {n : Nat} (digits : ∀ c ∈ s, Text.isAsciiDigit c = true)
    (read : Text.parseDigits s = some n) : parseDecimal s = some (n : ℚ) := by
  have whole : s.takeWhile Text.isAsciiDigit = s := List.takeWhile_eq_self_iff.mpr digits
  have remaining : s.dropWhile Text.isAsciiDigit = [] := List.dropWhile_eq_nil_iff.mpr digits
  simp only [parseDecimal, whole, remaining, List.append_nil, read, parseExponent]
  norm_num

/-- Digits behind the point count places. -/
theorem parseDecimal_point {whole decimals : Str} {n : Nat}
    (wholeDigits : ∀ c ∈ whole, Text.isAsciiDigit c = true)
    (decimalDigits : ∀ c ∈ decimals, Text.isAsciiDigit c = true)
    (read : Text.parseDigits (whole ++ decimals) = some n) :
    parseDecimal (whole ++ '.' :: decimals) = some (n * (10 : ℚ) ^ (-(decimals.length : Int))) := by
  have cut : (whole ++ '.' :: decimals).takeWhile Text.isAsciiDigit = whole := by
    rw [List.takeWhile_append_of_pos wholeDigits, List.takeWhile_cons_of_neg (by decide),
      List.append_nil]
  have remaining : (whole ++ '.' :: decimals).dropWhile Text.isAsciiDigit = '.' :: decimals := by
    rw [List.dropWhile_append_of_pos wholeDigits, List.dropWhile_cons_of_neg (by decide)]
  have places : decimals.takeWhile Text.isAsciiDigit = decimals :=
    List.takeWhile_eq_self_iff.mpr decimalDigits
  have ending : decimals.dropWhile Text.isAsciiDigit = [] :=
    List.dropWhile_eq_nil_iff.mpr decimalDigits
  simp only [parseDecimal, cut, remaining, places, ending, read, parseExponent, zero_sub]

theorem mem_padded {zeros n : Nat} {c : Char}
    (member : c ∈ List.replicate zeros '0' ++ Text.showNat n) : Text.isAsciiDigit c = true := by
  rcases List.mem_append.mp member with zero | digit
  · rw [List.eq_of_mem_replicate zero]
    rfl
  · exact Text.isAsciiDigit_of_mem_showNat digit

/-- A digit more moves the others up by one place. -/
theorem parseDigits_concat {s : Str} {n : Nat} {c : Char} (read : Text.parseDigits s = some n)
    (digit : Text.isAsciiDigit c = true) :
    Text.parseDigits (s ++ [c]) = some (n * 10 + (c.toNat - 48)) := by
  unfold Text.parseDigits at read
  by_cases wrong : (s.isEmpty || !s.all Text.isAsciiDigit) = true
  · rw [if_pos wrong] at read
    cases read
  · rw [if_neg wrong] at read
    cases read
    simp only [Bool.or_eq_true, not_or, Bool.not_eq_true, Bool.not_eq_false'] at wrong
    rw [Text.parseDigits, List.all_append, wrong.2, List.foldl_append]
    simp [digit]

/-- Zeros at the end multiply by a power of ten. -/
theorem parseDigits_zeros {s : Str} {n : Nat} (read : Text.parseDigits s = some n)
    (zeros : Nat) : Text.parseDigits (s ++ List.replicate zeros '0') = some (n * 10 ^ zeros) := by
  induction zeros with
  | zero => simpa using read
  | succ zeros inductionHypothesis =>
    have longer := parseDigits_concat inductionHypothesis (c := '0') rfl
    rw [List.replicate_succ', ← List.append_assoc, longer, pow_succ, mul_assoc]
    rfl

/-- Positional notation names its digits at their places. -/
theorem parseDecimal_positional (digits : Nat) (exponent : Int) :
    parseDecimal (positional digits exponent) = some (digits * (10 : ℚ) ^ exponent) := by
  unfold positional
  dsimp only
  split_ifs with whole
  · have read := parseDigits_zeros (Text.parseDigits_showNat digits) exponent.toNat
    have allDigits : ∀ c ∈ Text.showNat digits ++ List.replicate exponent.toNat '0',
        Text.isAsciiDigit c = true := by
      intro c member
      rcases List.mem_append.mp member with digit | zero
      · exact Text.isAsciiDigit_of_mem_showNat digit
      · rw [List.eq_of_mem_replicate zero]
        rfl
    rw [parseDecimal_whole allDigits read]
    push_cast
    rw [← zpow_natCast, Int.toNat_of_nonneg whole]
  · set places := exponent.natAbs with places_eq
    set zeros := places + 1 - (Text.showNat digits).length
    set padded := List.replicate zeros '0' ++ Text.showNat digits with padded_eq
    have room : places ≤ padded.length := by
      rw [padded_eq, List.length_append, List.length_replicate]
      omega
    have allDigits : ∀ c ∈ padded, Text.isAsciiDigit c = true := fun c => mem_padded
    have read : Text.parseDigits (padded.take (padded.length - places) ++
        padded.drop (padded.length - places)) = some digits := by
      rw [List.take_append_drop]
      exact Text.parseDigits_padded zeros digits
    rw [parseDecimal_point (fun c member => allDigits c (List.mem_of_mem_take member))
      (fun c member => allDigits c (List.mem_of_mem_drop member)) read, List.length_drop]
    congr 3
    omega

/-! ## Printed numbers -/

/-- A sign before a decimal number names its negation. -/
theorem decimalValue_signed {body : Str} {size : ℚ} (negative : Bool)
    (read : parseDecimal body = some size) :
    decimalValue ((if negative then ['-'] else []) ++ body) =
      some (if negative then -size else size) := by
  cases negative with
  | true =>
    simp only [if_true]
    exact congrArg (Option.map (-·)) read
  | false =>
    simp only [Bool.false_eq_true, if_false, List.nil_append]
    unfold decimalValue
    split
    · exact absurd (parseDecimal_head read) (by decide)
    · exact read

theorem nearest_signed (negative : Bool) {size : ℚ} (positive : 0 < size) :
    nearest (if negative then -size else size) = ofMagnitude negative size := by
  cases negative with
  | true => simp [nearest, positive, abs_of_pos positive]
  | false => simp [nearest, positive.not_gt, abs_of_pos positive]

/-- The digits that were found name a number that rounds to the original. -/
theorem ofMagnitude_of_readsBack {x : F64} {count digits : Nat}
    (found : digitsThatReadBack x count = some digits) :
    ofMagnitude x.negative (digits * 10 ^ (decimalExponent x.magnitude - count)) = x := by
  have scaled : (digits : ℚ) * 10 ^ (decimalExponent x.magnitude - count) =
      digits / 10 ^ ((count : Int) - decimalExponent x.magnitude) := by
    rw [div_eq_mul_inv, ← zpow_neg, neg_sub]
  rw [scaled]
  unfold digitsThatReadBack at found
  dsimp only at found
  split_ifs at found with close same above
  all_goals cases found
  · exact of_decide_eq_true close
  · exact of_decide_eq_true above
  · rename_i below
    exact of_decide_eq_true below

/-- A printed number names a decimal that rounds to it. -/
theorem nearest_of_toText {x : F64} {q : ℚ} (number : x.isNan = false)
    (finite : x.isInfinite = false) (named : decimalValue x.toText = some q) (nonzero : q ≠ 0) :
    nearest q = x := by
  have printed : ∃ digits exponent,
      x.toText = (if x.negative then ['-'] else []) ++ positional digits exponent ∧
        (digits ≠ 0 → ofMagnitude x.negative (digits * (10 : ℚ) ^ exponent) = x) := by
    unfold toText at named ⊢
    simp only [number, finite, Bool.false_eq_true, if_false] at named ⊢
    by_cases zero : x.magnitude = 0
    · rw [if_pos zero]
      exact ⟨0, 0, rfl, fun some => absurd rfl some⟩
    · rw [if_neg zero] at named ⊢
      cases search : ((List.range 17).map (· + 1)).findSome?
          (fun count => (digitsThatReadBack x count).map (count, ·)) with
      | none =>
        rw [search] at named
        cases sign : x.negative <;> rw [sign] at named <;> cases named
      | some found =>
        obtain ⟨count, digits⟩ := found
        obtain ⟨tried, _, mapped⟩ := List.exists_of_findSome?_eq_some search
        obtain ⟨_, readsBack, same⟩ := Option.map_eq_some_iff.mp mapped
        cases same
        have original := ofMagnitude_of_readsBack readsBack
        dsimp only
        by_cases power : digits = 10 ^ count
        · rw [if_pos power]
          refine ⟨1, _, rfl, fun _ => ?_⟩
          have shifted : (digits : ℚ) * 10 ^ (decimalExponent x.magnitude - count) =
              (1 : Nat) * 10 ^ decimalExponent x.magnitude := by
            rw [power, Nat.cast_pow, Nat.cast_ofNat, ← zpow_natCast, ← zpow_add₀ (by norm_num),
              add_sub_cancel, Nat.cast_one, one_mul]
          rw [← shifted, original]
        · rw [if_neg power]
          exact ⟨digits, _, rfl, fun _ => original⟩
  obtain ⟨digits, exponent, text, original⟩ := printed
  rw [text, decimalValue_signed _ (parseDecimal_positional digits exponent)] at named
  cases named
  by_cases zero : digits = 0
  · rw [zero, Nat.cast_zero, zero_mul, neg_zero, ite_self] at nonzero
    exact absurd rfl nonzero
  · have positive : (0 : ℚ) < digits * 10 ^ exponent := by
      have := Nat.pos_of_ne_zero zero
      positivity
    rw [nearest_signed _ positive, original zero]

/-! ## What a floating number stands for -/

/-- How a floating number of a JSON text is understood: as the `f64` itself, or as the
decimal that is printed for it. -/
inductive Reading where
  | bits
  | digits

/-- The number that an `f64` stands for. -/
def denotes (reading : Reading) (x : F64) : Option ℚ :=
  if x.isNan || x.isInfinite then none
  else
    match reading with
    | .bits => some x.value
    | .digits => decimalValue x.toText

theorem finite_of_denotes {reading : Reading} {x : F64} {q : ℚ}
    (named : x.denotes reading = some q) : x.isNan = false ∧ x.isInfinite = false := by
  unfold denotes at named
  split_ifs at named with special
  exact Bool.or_eq_false_iff.mp (Bool.not_eq_true _ ▸ special)

/-- A short significand at a finite exponent is below the limit. -/
theorem short_lt_limit (significand : Nat) (exponent : Int) (short : significand < 2 ^ 53)
    (low : exponent ≤ 971) : significand * (2 : ℚ) ^ exponent < limit := by
  calc significand * (2 : ℚ) ^ exponent < ((2 ^ 53 : Nat) : ℚ) * 2 ^ exponent := by
        gcongr
    _ ≤ ((2 ^ 53 : Nat) : ℚ) * 2 ^ (971 : Int) := by
        gcongr
        norm_num
    _ = limit := (limit_split 971 (by norm_num)).symm

theorem exponentField_finite {x : F64} (number : x.isNan = false) (finite : x.isInfinite = false) :
    x.exponentField ≠ 2047 := by
  intro special
  simp only [isNan, isInfinite, special, beq_self_eq_true, Bool.true_and] at number finite
  simp_all

/-- A finite number is below the limit. -/
theorem magnitude_lt_limit {x : F64} (number : x.isNan = false) (finite : x.isInfinite = false) :
    x.magnitude < limit := by
  have short : x.fraction < 2 ^ 52 := Nat.mod_lt _ (by norm_num)
  have field : x.exponentField < 2048 := Nat.mod_lt _ (by norm_num)
  have ordinary := exponentField_finite number finite
  unfold magnitude
  rw [if_neg ordinary]
  split_ifs with zero
  · exact short_lt_limit _ _ (by omega) (by norm_num)
  · have below := short_lt_limit (2 ^ 52 + x.fraction)
      ((x.exponentField : Int) - 1075) (by omega) (by omega)
    push_cast at below
    exact below

/-- A number below the limit is finite. -/
theorem finite_of_magnitude {x : F64} (below : x.magnitude < limit) :
    x.isNan = false ∧ x.isInfinite = false := by
  have ordinary : x.exponentField ≠ 2047 := by
    intro special
    rw [magnitude, if_pos special] at below
    exact below.ne limit_eq
  simp [isNan, isInfinite, ordinary]

theorem abs_value (x : F64) : |x.value| = x.magnitude := by
  have nonneg := magnitude_nonneg x
  unfold value
  split
  · rw [abs_neg, abs_of_nonneg nonneg]
  · exact abs_of_nonneg nonneg

/-- The magnitude of a finite `f64` is kept by rounding. -/
theorem magnitude_ofMagnitude_self (x : F64) (negative : Bool) :
    (ofMagnitude negative x.magnitude).magnitude = x.magnitude :=
  le_antisymm (ofMagnitude_le_magnitude x negative (magnitude_nonneg x) le_rfl)
    (magnitude_le_ofMagnitude x negative (magnitude_nonneg x) le_rfl)

/-- A number that some `f64` stands for is not changed by rounding. -/
theorem nearest_denotes {reading : Reading} {x : F64} {q : ℚ} (nonzero : q ≠ 0)
    (named : x.denotes reading = some q) : (nearest q).denotes reading = some q := by
  obtain ⟨number, finite⟩ := finite_of_denotes named
  unfold denotes at named ⊢
  rw [number, finite, Bool.or_self, if_neg Bool.false_ne_true] at named
  cases reading with
  | digits => 
    have same := nearest_of_toText number finite named nonzero
    rw [same, number, finite, Bool.or_self, if_neg Bool.false_ne_true]
    exact named
  | bits =>
    have value : x.value = q := Option.some.inj named
    have size : |q| = x.magnitude := value ▸ abs_value x
    have kept : (nearest q).magnitude = |q| := by
      rw [nearest, size, magnitude_ofMagnitude_self]
    obtain ⟨roundedNumber, roundedFinite⟩ := finite_of_magnitude
      (kept.trans size ▸ magnitude_lt_limit number finite)
    rw [roundedNumber, roundedFinite, Bool.or_self, if_neg Bool.false_ne_true]
    refine congrArg some ?_
    rw [F64.value, kept, nearest, negative_ofMagnitude]
    by_cases below : q < 0
    · simp [below, abs_of_neg below]
    · simp [below, abs_of_nonneg (not_lt.mp below)]

/-- A number with a short significand and an exponent in range is itself an `f64`. -/
theorem magnitude_ofMagnitude_short (negative : Bool) (significand : Nat) (exponent : Int)
    (short : significand < 2 ^ 53) (lowest : -1074 ≤ exponent) (low : exponent ≤ 971) :
    (ofMagnitude negative (significand * 2 ^ exponent)).magnitude = significand * 2 ^ exponent := by
  have nonneg : 0 ≤ significand * (2 : ℚ) ^ exponent := by positivity
  rcases nonneg.eq_or_lt with zero | positive
  · rw [← zero, magnitude_ofMagnitude_zero]
  · rw [magnitude_ofMagnitude negative positive]
    have kept : rounded (significand * 2 ^ exponent) = significand * 2 ^ exponent :=
      le_antisymm (rounded_le positive short lowest le_rfl) (le_rounded positive short lowest le_rfl)
    rw [kept]
    exact min_eq_left (short_lt_limit _ _ short low).le

/-! ## Exact texts -/

/-- A sign before a decimal number is the sign that is read. -/
theorem parse_signed {body : Str} {size : ℚ} (negative : Bool)
    (read : parseDecimal body = some size) :
    parse ((if negative then ['-'] else []) ++ body) = some (ofMagnitude negative size) := by
  cases negative with
  | true => exact parseUnsigned_of_decimal true read
  | false =>
    rw [if_neg Bool.false_ne_true, List.nil_append, ← parseUnsigned_of_decimal false read]
    unfold parse
    split
    · exact absurd (parseDecimal_head read) (by decide)
    · exact absurd (parseDecimal_head read) (by decide)
    · rfl

/-- The whole number in a magnitude, which counts a power of two. -/
def significand (x : F64) : Nat := if x.exponentField = 0 then x.fraction else 2 ^ 52 + x.fraction

def exponent (x : F64) : Int := if x.exponentField = 0 then -1074 else x.exponentField - 1075

theorem magnitude_eq {x : F64} (finite : x.exponentField ≠ 2047) :
    x.magnitude = x.significand * 2 ^ x.exponent := by
  unfold magnitude significand exponent
  rw [if_neg finite]
  split_ifs
  · rfl
  · push_cast
    rfl

/-- A larger exponent makes a larger number. -/
theorem magnitude_lt {x y : F64} (ordered : x.exponentField < y.exponentField)
    (finite : y.exponentField ≠ 2047) (finite' : x.exponentField ≠ 2047) :
    x.magnitude < y.magnitude := by
  have short : x.fraction < 2 ^ 52 := Nat.mod_lt _ (by norm_num)
  have below : (x.significand : ℚ) * 2 ^ x.exponent < ((2 ^ 52 : Nat) : ℚ) * 2 ^ y.exponent := by
    have normal : y.exponent = (y.exponentField : Int) - 1075 := if_neg (by omega)
    by_cases zero : x.exponentField = 0
    · have low : x.exponent = -1074 := if_pos zero
      have small : x.significand = x.fraction := if_pos zero
      rw [low, small, normal]
      refine lt_of_lt_of_le (mul_lt_mul_of_pos_right (Nat.cast_lt.mpr short) (two_zpow_pos _)) ?_
      exact mul_le_mul_of_nonneg_left (two_zpow_le (by omega)) (Nat.cast_nonneg _)
    · have low : x.exponent = (x.exponentField : Int) - 1075 := if_neg zero
      have large : x.significand < 2 * 2 ^ 52 := by
        rw [significand, if_neg zero]
        omega
      rw [low, normal]
      refine lt_of_lt_of_le (mul_lt_mul_of_pos_right (Nat.cast_lt.mpr large) (two_zpow_pos _)) ?_
      have doubled : ((2 * 2 ^ 52 : Nat) : ℚ) * 2 ^ ((x.exponentField : Int) - 1075) =
          ((2 ^ 52 : Nat) : ℚ) * 2 ^ ((x.exponentField : Int) - 1075 + 1) := by
        rw [zpow_add_one₀ (by norm_num)]
        push_cast
        ring
      rw [doubled]
      exact mul_le_mul_of_nonneg_left (two_zpow_le (by omega)) (Nat.cast_nonneg _)
  have filled : (2 ^ 52 : Nat) ≤ y.significand := by
    rw [significand, if_neg (by omega)]
    omega
  rw [magnitude_eq finite', magnitude_eq finite]
  exact below.trans_le (mul_le_mul_of_nonneg_right (Nat.cast_le.mpr filled) (two_zpow_pos _).le)

/-- A finite number is known by its sign and its magnitude. -/
theorem eq_of_magnitude {x y : F64} (finite : x.exponentField ≠ 2047)
    (finite' : y.exponentField ≠ 2047) (sign : x.negative = y.negative)
    (size : x.magnitude = y.magnitude) : x = y := by
  have field : x.exponentField = y.exponentField := by
    rcases lt_trichotomy x.exponentField y.exponentField with below | same | above
    · exact absurd size (magnitude_lt below finite' finite).ne
    · exact same
    · exact absurd size.symm (magnitude_lt above finite finite').ne
  have places : x.exponent = y.exponent := by rw [exponent, exponent, field]
  have digits : x.fraction = y.fraction := by
    rw [magnitude_eq finite, magnitude_eq finite', places] at size
    have same := Nat.cast_injective (mul_right_cancel₀ (two_zpow_pos y.exponent).ne' size)
    simp only [significand, field] at same
    split_ifs at same <;> omega
  have bits : x.bits.toNat = y.bits.toNat := by
    have bound := x.bits.isLt
    have bound' := y.bits.isLt
    simp only [negative, BitVec.msb_eq_decide, decide_eq_decide] at sign
    simp only [exponentField] at field
    simp only [fraction] at digits
    omega
  exact congrArg F64.mk (BitVec.eq_of_toNat_eq bits)

/-- Rounding does not change a finite number. -/
theorem ofMagnitude_magnitude {x : F64} (number : x.isNan = false) (finite : x.isInfinite = false) :
    ofMagnitude x.negative x.magnitude = x := by
  have kept := magnitude_ofMagnitude_self x x.negative
  have below : (ofMagnitude x.negative x.magnitude).magnitude < limit :=
    kept.trans_lt (magnitude_lt_limit number finite)
  obtain ⟨keptNumber, keptFinite⟩ := finite_of_magnitude below
  exact eq_of_magnitude (exponentField_finite keptNumber keptFinite)
    (exponentField_finite number finite) (negative_ofMagnitude _ _) kept

/-- All the decimal places of a finite number. -/
def exactText (x : F64) : Str :=
  (if x.negative then ['-'] else []) ++
    positional (x.significand * 5 ^ (-x.exponent).toNat * 2 ^ x.exponent.toNat) (min x.exponent 0)

theorem parse_exactText {x : F64} (number : x.isNan = false) (finite : x.isInfinite = false) :
    parse x.exactText = some x := by
  have named := parseDecimal_positional
    (x.significand * 5 ^ (-x.exponent).toNat * 2 ^ x.exponent.toNat) (min x.exponent 0)
  have value : ((x.significand * 5 ^ (-x.exponent).toNat * 2 ^ x.exponent.toNat : Nat) : ℚ) *
      10 ^ min x.exponent 0 = x.magnitude := by
    rw [magnitude_eq (exponentField_finite number finite)]
    rcases le_total 0 x.exponent with whole | places
    · obtain ⟨power, same⟩ := Int.eq_ofNat_of_zero_le whole
      rw [same, min_eq_right (Int.natCast_nonneg power)]
      simp
    · obtain ⟨power, same⟩ := Int.eq_ofNat_of_zero_le (neg_nonneg.mpr places)
      have exponent_eq : x.exponent = -(power : Int) := by omega
      rw [exponent_eq, min_eq_left (by omega), neg_neg, Int.toNat_natCast, zpow_neg, zpow_neg,
        zpow_natCast, zpow_natCast]
      have none : (-(power : Int)).toNat = 0 := by omega
      rw [none]
      push_cast
      have split : (10 : ℚ) ^ power = 5 ^ power * 2 ^ power := by rw [← mul_pow]; norm_num
      rw [split]
      field_simp
  rw [value] at named
  rw [exactText, parse_signed _ named, ofMagnitude_magnitude number finite]

end LumidPlatform.F64
