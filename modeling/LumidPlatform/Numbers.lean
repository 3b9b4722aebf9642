import Mathlib.Data.Rat.Floor
import LumidPlatform.Text

/-!
# Binary floating point, as the source reads, compares and prints it

An `f64` is its 64 bits. Comparison follows IEEE 754, a decimal text is rounded
to the nearest number with ties to even, and printing gives the shortest decimal
that reads back as the same number, in positional notation. Arithmetic on floats
does not occur in the modelled code and is left out.
-/

namespace LumidPlatform

/-- An `f64`, by its bits. -/
structure F64 where
  bits : BitVec 64
  deriving DecidableEq

namespace F64

def negative (x : F64) : Bool := x.bits.msb

def exponentField (x : F64) : Nat := x.bits.toNat / 2 ^ 52 % 2048

def fraction (x : F64) : Nat := x.bits.toNat % 2 ^ 52

def isNan (x : F64) : Bool := x.exponentField == 2047 && x.fraction != 0

def isInfinite (x : F64) : Bool := x.exponentField == 2047 && x.fraction == 0

/-- The absolute value. An infinity stands above every finite number. -/
def magnitude (x : F64) : ℚ :=
  if x.exponentField = 2047 then 2 ^ 1024
  else if x.exponentField = 0 then x.fraction * (2 : ℚ) ^ (-1074 : Int)
  else (2 ^ 52 + x.fraction) * (2 : ℚ) ^ ((x.exponentField : Int) - 1075)

def value (x : F64) : ℚ := if x.negative then -x.magnitude else x.magnitude

/-- `<` on `f64`: false as soon as one side is not a number. -/
def lt (x y : F64) : Bool := !x.isNan && !y.isNan && decide (x.value < y.value)

def infinity (negative : Bool) : F64 :=
  ⟨BitVec.ofNat 64 ((if negative then 2 ^ 63 else 0) + 2047 * 2 ^ 52)⟩

def nan (negative : Bool) : F64 :=
  ⟨BitVec.ofNat 64 ((if negative then 2 ^ 63 else 0) + 2047 * 2 ^ 52 + 2 ^ 51)⟩

/-- The nearest natural number, ties to even. -/
def roundHalfEven (q : ℚ) : Nat :=
  let below := q.floor.toNat
  let excess := q - below
  if excess < 1 / 2 then below
  else if 1 / 2 < excess then below + 1
  else if below % 2 = 0 then below else below + 1

/-- The exponent of the largest power of two at or below a positive number. -/
def log2 (q : ℚ) : Int :=
  let estimate : Int := (Nat.log2 q.num.natAbs : Int) - Nat.log2 q.den
  if (2 : ℚ) ^ estimate ≤ q then estimate else estimate - 1

/-- The nearest `f64` to a number with the given sign and absolute value. The
significand's carry runs into the exponent field, so one sum encodes both. -/
def ofMagnitude (negative : Bool) (q : ℚ) : F64 :=
  let sign := if negative then 2 ^ 63 else 0
  if q = 0 then ⟨BitVec.ofNat 64 sign⟩
  else
    let exponent := max (log2 q - 52) (-1074)
    let significand := roundHalfEven (q / (2 : ℚ) ^ exponent)
    let encoded := (exponent + 1074).toNat * 2 ^ 52 + significand
    if 2047 * 2 ^ 52 ≤ encoded then infinity negative
    else ⟨BitVec.ofNat 64 (sign + encoded)⟩

/-- `n as f64`. -/
def ofInt (n : Int) : F64 := ofMagnitude (n < 0) n.natAbs

/-! ## Reading and printing -/

/-- The exponent part of a decimal number: nothing, or `e`, a sign and digits. -/
def parseExponent : Str → Option Int
  | [] => some 0
  | mark :: rest =>
    if mark = 'e' ∨ mark = 'E' then
      match rest with
      | '-' :: digits => (Text.parseDigits digits).map (fun n => -(n : Int))
      | '+' :: digits => (Text.parseDigits digits).map (fun n => (n : Int))
      | digits => (Text.parseDigits digits).map (fun n => (n : Int))
    else none

/-- A decimal number without sign: digits around an optional point, at least one
of them, and an optional exponent. -/
def parseDecimal (s : Str) : Option ℚ :=
  let whole := s.takeWhile Text.isAsciiDigit
  let afterWhole := s.dropWhile Text.isAsciiDigit
  let (decimals, tail) := match afterWhole with
    | '.' :: rest => (rest.takeWhile Text.isAsciiDigit, rest.dropWhile Text.isAsciiDigit)
    | rest => ([], rest)
  match Text.parseDigits (whole ++ decimals), parseExponent tail with
  | some digits, some exponent => some (digits * (10 : ℚ) ^ (exponent - decimals.length))
  | _, _ => none

/-- A number without sign: a special name in any letter case, or a decimal. -/
def parseUnsigned (negative : Bool) (s : Str) : Option F64 :=
  let name := Text.toAsciiLowercase s
  if name = "inf".str ∨ name = "infinity".str then some (infinity negative)
  else if name = "nan".str then some (nan negative)
  else (parseDecimal s).map (ofMagnitude negative)

/-- `str::parse::<f64>`. -/
def parse : Str → Option F64
  | '-' :: rest => parseUnsigned true rest
  | '+' :: rest => parseUnsigned false rest
  | rest => parseUnsigned false rest

/-- The decimal exponent: the least `k` up to the bound with `q < 10 ^ k`. -/
def decimalExponent (q : ℚ) : Int :=
  ((List.range 640).map (fun step : Nat => (step : Int) - 330)).find?
    (fun k => decide (q < (10 : ℚ) ^ k)) |>.getD 310

/-- The digits of `count` significant places nearest to a positive number among
those that read back as the same number. -/
def digitsThatReadBack (x : F64) (count : Nat) : Option Nat :=
  let scale := (10 : ℚ) ^ ((count : Int) - decimalExponent x.magnitude)
  let exact := x.magnitude * scale
  let below := exact.floor.toNat
  let readsBack := fun n : Nat => decide (ofMagnitude x.negative (n / scale) = x)
  let nearest := roundHalfEven exact
  let other := if nearest = below then below + 1 else below
  if readsBack nearest then some nearest else if readsBack other then some other else none

/-- Positional notation of `digits` whose last place counts `10 ^ exponent`. -/
def positional (digits : Nat) (exponent : Int) : Str :=
  let shown := Text.showNat digits
  if 0 ≤ exponent then shown ++ List.replicate exponent.toNat '0'
  else
    let places := exponent.natAbs
    let padded := List.replicate (places + 1 - shown.length) '0' ++ shown
    padded.take (padded.length - places) ++ '.' :: padded.drop (padded.length - places)

/-- `f64::to_string`. -/
def toText (x : F64) : Str :=
  if x.isNan then "NaN".str
  else
    let sign := if x.negative then ['-'] else []
    if x.isInfinite then sign ++ "inf".str
    else if x.magnitude = 0 then sign ++ ['0']
    else
      let counts := (List.range 17).map (· + 1)
      match counts.findSome? (fun count => (digitsThatReadBack x count).map (count, ·)) with
      | some (count, digits) =>
        -- rounding up to a power of ten leaves one significant digit
        if digits = 10 ^ count then sign ++ positional 1 (decimalExponent x.magnitude)
        else sign ++ positional digits (decimalExponent x.magnitude - count)
      | none => sign

end F64

end LumidPlatform
