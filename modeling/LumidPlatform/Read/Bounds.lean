import LumidPlatform.Rounding
import LumidPlatform.Read.Bind

/-!
# Declared bounds

A numeric parameter is read from its text and then compared with its bounds as a
double. Nothing that lies within the bounds is refused, since rounding never crosses
a double. What lies outside may pass: an integer that rounds onto a bound, and
whatever a comparison with NaN leaves undecided.
-/

namespace LumidPlatform.Read.Bounds

open LumidPlatform.Read.Spec LumidPlatform.Read.Dialect LumidPlatform.Read.Bind

/-! ## What the bounds ask for -/

/-- A parameter with a numeric type and at least one bound. -/
structure Bounded (p : ParamSpec) : Prop where
  numeric : p.ty = "int".str ∨ p.ty = "float".str
  declared : p.min.isSome ∨ p.max.isSome

/-- What a text reads as, before any bound is looked at. -/
def reading (p : ParamSpec) (raw : Str) : Option BindValue :=
  if p.ty = "int".str then (Text.parseI64 (Text.trim raw)).map .int
  else if p.ty = "float".str then (F64.parse (Text.trim raw)).map .float
  else none

/-- The number that a value is, exactly. An infinity is beyond every finite number,
and NaN is no number. -/
def number : BindValue → Option ℚ
  | .int n => some n
  | .float f => if f.isNan then none else some f.value
  | _ => none

/-- A value is a number, at or above the lower bound and at or below the upper one. -/
def InBounds (p : ParamSpec) (v : BindValue) : Prop :=
  ∃ q, number v = some q ∧
    (∀ mn, p.min = some mn → mn.isNan = false ∧ mn.value ≤ q) ∧
    (∀ mx, p.max = some mx → mx.isNan = false ∧ q ≤ mx.value)

/-- Only values within the bounds are accepted, and all of them are. -/
structure Enforced (crates : Crates) (p : ParamSpec) (raw : Str) : Prop where
  sound : ∀ v, coerce crates p raw = .ok v → InBounds p v
  complete : ∀ v, reading p raw = some v → InBounds p v → coerce crates p raw = .ok v

/-! ## What the check compares -/

/-- The double that is compared in place of a value. -/
def compared : BindValue → Option F64
  | .int n => some (F64.ofInt n)
  | .float f => some f
  | _ => none

/-- A bound that a double is found beyond. -/
def Beyond (p : ParamSpec) (v : F64) : Prop :=
  (∃ mn, p.min = some mn ∧ v.lt mn = true) ∨ (∃ mx, p.max = some mx ∧ mx.lt v = true)

theorem lt_iff (x y : F64) :
    x.lt y = true ↔ x.isNan = false ∧ y.isNan = false ∧ x.value < y.value := by
  simp [F64.lt, and_assoc]

theorem rangeCheck_ok_iff (p : ParamSpec) (v : F64) (raw : Str) :
    rangeCheck p v raw = .ok () ↔ ¬ Beyond p v := by
  unfold rangeCheck Beyond
  cases p.min <;> cases p.max <;> simp

/-- A value passes its check unchanged. -/
theorem checked_ok_iff {p : ParamSpec} {x : F64} {read : BindValue} (raw : Str) (v : BindValue)
    (found : compared read = some x) :
    (rangeCheck p x raw).map (fun _ => read) = .ok v ↔
      some read = some v ∧ ∀ y, compared v = some y → ¬ Beyond p y := by
  have passed : (rangeCheck p x raw).map (fun _ => read) = .ok v ↔ read = v ∧ ¬ Beyond p x := by
    rw [← rangeCheck_ok_iff p x raw]
    cases rangeCheck p x raw with
    | ok => simp [Except.map]
    | error failure => simp [Except.map]
  rw [passed]
  constructor
  · rintro ⟨rfl, within⟩
    refine ⟨rfl, fun y same => ?_⟩
    obtain rfl := Option.some.inj (found.symm.trans same)
    exact within
  · rintro ⟨same, within⟩
    obtain rfl := Option.some.inj same
    exact ⟨rfl, within x found⟩

/-- A numeric parameter is accepted with the value read, unless that is beyond a bound. -/
theorem coerce_ok_iff {p : ParamSpec} (bounded : Bounded p) (crates : Crates) (raw : Str)
    (v : BindValue) :
    coerce crates p raw = .ok v ↔
      reading p raw = some v ∧ ∀ x, compared v = some x → ¬ Beyond p x := by
  rcases bounded.numeric with integer | float
  · simp only [coerce, reading, integer, if_neg (show ¬ ("int".str = "key".str ∨
      "int".str = "symbol".str) by decide), if_neg (show "int".str ≠ "str".str by decide), if_true]
    cases Text.parseI64 (Text.trim raw) with
    | none => simp
    | some n => exact checked_ok_iff raw v rfl
  · simp only [coerce, reading, float, if_neg (show ¬ ("float".str = "key".str ∨
      "float".str = "symbol".str) by decide), if_neg (show "float".str ≠ "str".str by decide),
      if_neg (show "float".str ≠ "int".str by decide), if_true]
    cases F64.parse (Text.trim raw) with
    | none => simp
    | some f => exact checked_ok_iff raw v rfl

/-- What a text reads as is compared as a double. -/
theorem compared_of_reading {p : ParamSpec} {raw : Str} {v : BindValue}
    (read : reading p raw = some v) : ∃ x, compared v = some x := by
  unfold reading at read
  split_ifs at read with integer float
  · obtain ⟨n, _, rfl⟩ := Option.map_eq_some_iff.mp read
    exact ⟨F64.ofInt n, rfl⟩
  · obtain ⟨f, _, rfl⟩ := Option.map_eq_some_iff.mp read
    exact ⟨f, rfl⟩

/-! ## Rounding and the bounds -/

/-- An integer beyond a bound whose nearest double is the bound itself. -/
def RoundsOnto (p : ParamSpec) (n : Int) : Prop :=
  (∃ mn, p.min = some mn ∧ (n : ℚ) < mn.value ∧ (F64.ofInt n).value = mn.value) ∨
    (∃ mx, p.max = some mx ∧ mx.value < n ∧ (F64.ofInt n).value = mx.value)

/-- A bound that is not a number. -/
def NanBound (p : ParamSpec) : Prop :=
  (∃ mn, p.min = some mn ∧ mn.isNan = true) ∨ (∃ mx, p.max = some mx ∧ mx.isNan = true)

/-- What is compared says as much as the value itself. -/
def Decided (p : ParamSpec) : BindValue → Prop
  | .int n => ¬ RoundsOnto p n
  | .float f => f.isNan = false
  | _ => True

/-- What a text reads as is beyond a bound already after rounding, or both the bounds
and what is compared with them decide. -/
def HeldTo (p : ParamSpec) (raw : Str) : Prop :=
  ∀ v, reading p raw = some v →
    (∃ x, compared v = some x ∧ Beyond p x) ∨ (¬ NanBound p ∧ Decided p v)

/-- What lies between two numbers stays between them under the comparison. -/
theorem between_not_beyond {p : ParamSpec} {x : F64}
    (low : ∀ mn, p.min = some mn → mn.value ≤ x.value)
    (high : ∀ mx, p.max = some mx → x.value ≤ mx.value) : ¬ Beyond p x := by
  rintro (⟨mn, declared, less⟩ | ⟨mx, declared, less⟩)
  · exact absurd ((lt_iff _ _).mp less).2.2 (not_lt.mpr (low mn declared))
  · exact absurd ((lt_iff _ _).mp less).2.2 (not_lt.mpr (high mx declared))

/-- Nothing within the bounds is refused: rounding does not cross a bound. -/
theorem inBounds_not_beyond {p : ParamSpec} {v : BindValue} {x : F64} (within : InBounds p v)
    (found : compared v = some x) : ¬ Beyond p x := by
  obtain ⟨q, named, low, high⟩ := within
  cases v with
  | int n =>
    obtain rfl := Option.some.inj found
    obtain rfl := Option.some.inj named
    exact between_not_beyond (fun mn declared => F64.le_ofInt mn (low mn declared).2)
      (fun mx declared => F64.ofInt_le mx (high mx declared).2)
  | float f =>
    obtain rfl := Option.some.inj found
    have exact : f.value = q := by
      simp only [number] at named
      split_ifs at named
      exact Option.some.inj named
    subst exact
    exact between_not_beyond (fun mn declared => (low mn declared).2)
      (fun mx declared => (high mx declared).2)
  | _ => cases found

/-- What is not beyond numeric bounds, and is decided, is within them. -/
theorem inBounds_of_decided {p : ParamSpec} {v : BindValue} {x : F64} (numeric : ¬ NanBound p)
    (decided : Decided p v) (found : compared v = some x) (within : ¬ Beyond p x) :
    InBounds p v := by
  have low_number : ∀ mn, p.min = some mn → mn.isNan = false := fun mn declared =>
    Bool.eq_false_iff.mpr (fun nan => numeric (.inl ⟨mn, declared, nan⟩))
  have high_number : ∀ mx, p.max = some mx → mx.isNan = false := fun mx declared =>
    Bool.eq_false_iff.mpr (fun nan => numeric (.inr ⟨mx, declared, nan⟩))
  have low : x.isNan = false → ∀ mn, p.min = some mn → mn.value ≤ x.value :=
    fun isNumber mn declared => not_lt.mp (fun less =>
      within (.inl ⟨mn, declared, (lt_iff _ _).mpr ⟨isNumber, low_number mn declared, less⟩⟩))
  have high : x.isNan = false → ∀ mx, p.max = some mx → x.value ≤ mx.value :=
    fun isNumber mx declared => not_lt.mp (fun less =>
      within (.inr ⟨mx, declared, (lt_iff _ _).mpr ⟨high_number mx declared, isNumber, less⟩⟩))
  cases v with
  | int n =>
    obtain rfl := Option.some.inj found
    have isNumber : (F64.ofInt n).isNan = false := F64.isNan_ofMagnitude _ _
    refine ⟨n, rfl, fun mn declared => ⟨low_number mn declared, ?_⟩,
      fun mx declared => ⟨high_number mx declared, ?_⟩⟩
    · by_contra less
      have under : (n : ℚ) < mn.value := not_le.mp less
      have met := le_antisymm (F64.ofInt_le mn under.le) (low isNumber mn declared)
      exact decided (.inl ⟨mn, declared, under, met⟩)
    · by_contra more
      have beyond : mx.value < (n : ℚ) := not_le.mp more
      have met := le_antisymm (high isNumber mx declared) (F64.le_ofInt mx beyond.le)
      exact decided (.inr ⟨mx, declared, beyond, met⟩)
  | float f =>
    obtain rfl := Option.some.inj found
    refine ⟨f.value, ?_, fun mn declared => ⟨low_number mn declared, low decided mn declared⟩,
      fun mx declared => ⟨high_number mx declared, high decided mx declared⟩⟩
    simp only [number]
    rw [if_neg (by simp [show f.isNan = false from decided])]
  | _ => cases found

/-- What is within the bounds is decided, and the bounds are numbers. -/
theorem decided_of_inBounds {p : ParamSpec} {v : BindValue} (within : InBounds p v) :
    ¬ NanBound p ∧ Decided p v := by
  obtain ⟨q, named, low, high⟩ := within
  constructor
  · rintro (⟨mn, declared, nan⟩ | ⟨mx, declared, nan⟩)
    · exact absurd ((low mn declared).1.symm.trans nan) (by decide)
    · exact absurd ((high mx declared).1.symm.trans nan) (by decide)
  cases v with
  | int n =>
    obtain rfl := Option.some.inj named
    rintro (⟨mn, declared, under, _⟩ | ⟨mx, declared, beyond, _⟩)
    · exact absurd (low mn declared).2 (not_le.mpr under)
    · exact absurd (high mx declared).2 (not_le.mpr beyond)
  | float f =>
    simp only [number] at named
    split_ifs at named with nan
    exact Bool.eq_false_iff.mpr nan
  | _ => cases named

/-- The bounds are enforced on a text exactly when what it reads as is beyond a bound
after rounding too, or nothing compared is NaN and no integer rounds onto a bound that
it is beyond. -/
theorem enforced_iff (crates : Crates) (p : ParamSpec) (raw : Str) (bounded : Bounded p) :
    Enforced crates p raw ↔ HeldTo p raw := by
  constructor
  · intro enforced v read
    obtain ⟨x, found⟩ := compared_of_reading read
    by_cases beyond : Beyond p x
    · exact .inl ⟨x, found, beyond⟩
    · have accepted : coerce crates p raw = .ok v := by
        refine (coerce_ok_iff bounded crates raw v).mpr ⟨read, fun y same => ?_⟩
        obtain rfl := Option.some.inj (found.symm.trans same)
        exact beyond
      exact .inr (decided_of_inBounds (enforced.sound v accepted))
  · intro held
    refine ⟨fun v accepted => ?_, fun v read within => ?_⟩
    · obtain ⟨read, within⟩ := (coerce_ok_iff bounded crates raw v).mp accepted
      rcases held v read with ⟨x, found, beyond⟩ | ⟨numeric, decided⟩
      · exact absurd beyond (within x found)
      · obtain ⟨x, found⟩ := compared_of_reading read
        exact inBounds_of_decided numeric decided found (within x found)
    · exact (coerce_ok_iff bounded crates raw v).mpr
        ⟨read, fun x found => inBounds_not_beyond within found⟩

/-! ## Texts on either side -/

/-- A parameter that is to be from zero to the last integer below which all are doubles,
`9007199254740992`. -/
def upToLastExact (ty : Str) : ParamSpec :=
  { name := "n".str, kind := .query, ty := ty, min := some ⟨0#64⟩,
    max := some ⟨0x4340000000000000#64⟩ }

theorem upToLastExact_bounded {ty : Str} (numeric : ty = "int".str ∨ ty = "float".str) :
    Bounded (upToLastExact ty) :=
  ⟨numeric, .inl rfl⟩

/-- An integer in the middle is accepted, and one below is refused. -/
theorem ten_enforced :
    Enforced Crates.plain (upToLastExact "int".str) "10".str ∧
      Enforced Crates.plain (upToLastExact "int".str) "-1".str := by
  have bounded : Bounded (upToLastExact "int".str) := upToLastExact_bounded (.inl rfl)
  constructor
  · refine (enforced_iff Crates.plain (upToLastExact "int".str) "10".str bounded).mpr ?_
    intro v read
    have ten : reading (upToLastExact "int".str) "10".str = some (.int 10) := by decide +kernel
    obtain rfl := Option.some.inj (ten.symm.trans read)
    refine .inr ⟨?_, ?_⟩
    · rintro (⟨mn, declared, nan⟩ | ⟨mx, declared, nan⟩)
      · obtain rfl := Option.some.inj declared
        exact absurd nan (by decide +kernel)
      · obtain rfl := Option.some.inj declared
        exact absurd nan (by decide +kernel)
    · rintro (⟨mn, declared, under, _⟩ | ⟨mx, declared, beyond, _⟩)
      · obtain rfl := Option.some.inj declared
        exact absurd under (by decide +kernel)
      · obtain rfl := Option.some.inj declared
        exact absurd beyond (by decide +kernel)
  · refine (enforced_iff Crates.plain (upToLastExact "int".str) "-1".str bounded).mpr ?_
    intro v read
    have minusOne : reading (upToLastExact "int".str) "-1".str = some (.int (-1)) := by
      decide +kernel
    obtain rfl := Option.some.inj (minusOne.symm.trans read)
    exact .inl ⟨F64.ofInt (-1), rfl, .inl ⟨⟨0#64⟩, rfl, by decide +kernel⟩⟩

/-- One more than the upper bound passes, since it rounds down onto the bound, and NaN
passes any bounds. -/
theorem one_above_accepted :
    ¬ Enforced Crates.plain (upToLastExact "int".str) "9007199254740993".str ∧
      ¬ Enforced Crates.plain (upToLastExact "float".str) "nan".str := by
  constructor
  · intro enforced
    have accepted : coerce Crates.plain (upToLastExact "int".str) "9007199254740993".str =
        .ok (.int 9007199254740993) := by
      refine (coerce_ok_iff (upToLastExact_bounded (.inl rfl)) _ _ _).mpr
        ⟨by decide +kernel, fun x found => ?_⟩
      obtain rfl := Option.some.inj found
      refine between_not_beyond (fun mn declared => ?_) (fun mx declared => ?_)
      · obtain rfl := Option.some.inj declared
        decide +kernel
      · obtain rfl := Option.some.inj declared
        decide +kernel
    obtain ⟨q, named, _, high⟩ := enforced.sound _ accepted
    obtain rfl := Option.some.inj named
    exact absurd (high _ rfl).2 (by decide +kernel)
  · intro enforced
    have accepted : coerce Crates.plain (upToLastExact "float".str) "nan".str =
        .ok (.float (F64.nan false)) := by
      refine (coerce_ok_iff (upToLastExact_bounded (.inr rfl)) _ _ _).mpr
        ⟨by decide +kernel, fun x found => ?_⟩
      obtain rfl := Option.some.inj found
      rintro (⟨mn, declared, less⟩ | ⟨mx, declared, less⟩)
      · exact absurd ((lt_iff _ _).mp less).1 (by decide +kernel)
      · exact absurd ((lt_iff _ _).mp less).2.1 (by decide +kernel)
    obtain ⟨q, named, _⟩ := enforced.sound _ accepted
    exact absurd named (by rw [number, if_pos (by decide +kernel)]; exact nofun)

end LumidPlatform.Read.Bounds
