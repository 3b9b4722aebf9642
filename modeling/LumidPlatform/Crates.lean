import Mathlib.Logic.Equiv.Nat
import LumidPlatform.Numbers
import LumidPlatform.Lib.Sha256

/-!
# What the program takes from other crates

JSON values are those of `serde_json` with insertion-ordered objects. Dates and
instants are what `chrono` stores. The functions whose code lives in those crates
(parsing and printing of dates, durations and JSON, the digest) are fields of one
structure, so every result below holds for whatever they compute, up to the
documented facts the structure carries.
-/

namespace LumidPlatform

/-- A `serde_json::Number`. -/
inductive JsonNumber where
  | int (n : Int)
  | float (x : F64)
  deriving DecidableEq

/-- A `serde_json::Value`; an object keeps its keys in insertion order. -/
inductive Json where
  | null
  | bool (b : Bool)
  | number (n : JsonNumber)
  | string (s : Str)
  | array (items : List Json)
  | object (members : List (Str × Json))

/-- The recursion limit of `serde_json`, which no document that is read reaches. -/
def recursionLimit : Nat := 128

/-- A `serde_json::Map`. -/
abbrev JsonMap := List (Str × Json)

namespace JsonMap

/-- `Map::insert`: replaces the value of a present key in its place, else appends. -/
def insert (key : Str) (value : Json) : JsonMap → JsonMap
  | [] => [(key, value)]
  | (name, old) :: rest =>
    if name = key then (name, value) :: rest else (name, old) :: insert key value rest

/-- `Map::get`. -/
def get (map : JsonMap) (key : Str) : Option Json := List.lookup key map

/-- `Map::remove`: with insertion order kept, the last entry takes the place of
the removed one. -/
def remove (key : Str) (map : JsonMap) : JsonMap :=
  match map.span (fun entry => entry.1 ≠ key) with
  | (before, _ :: after) =>
    match after.getLast? with
    | some moved => before ++ moved :: after.dropLast
    | none => before
  | (before, []) => before

end JsonMap

namespace Json

/-- `Value::as_str`. -/
def asStr? : Json → Option Str
  | .string s => some s
  | _ => none

/-- `Value::as_array`. -/
def asArray? : Json → Option (List Json)
  | .array items => some items
  | _ => none

/-- `Value::as_object`. -/
def asObject? : Json → Option JsonMap
  | .object members => some members
  | _ => none

/-- `Value::as_i64`. -/
def asI64? : Json → Option Int64
  | .number (.int n) => if -2 ^ 63 ≤ n ∧ n < 2 ^ 63 then some (.ofInt n) else none
  | _ => none

/-- `Value::from` on a float: a number that is not finite has no JSON form. -/
def ofF64 (x : F64) : Json :=
  if x.isNan || x.isInfinite then .null else .number (.float x)

/-- `Value::from` on an optional float. -/
def ofOptionF64 : Option F64 → Json
  | some x => ofF64 x
  | none => .null

/-- `Value::from` on a count. -/
def ofNat (n : Nat) : Json := .number (.int n)

end Json

/-- A `NaiveDate`: its day number from the common era. -/
structure NaiveDate where
  days : Int
  deriving DecidableEq

/-- A `DateTime<Utc>`: seconds since the epoch and nanoseconds within the second,
which pass one second in a leap second. -/
structure DateTime where
  seconds : Int
  nanos : Nat
  deriving DecidableEq

/-- `DateTime::from_naive_utc_and_offset` at midnight; day 719163 is the epoch. -/
def NaiveDate.midnight (d : NaiveDate) : DateTime := ⟨(d.days - 719163) * 86400, 0⟩

/-- A `Duration`, in nanoseconds. -/
structure Duration where
  nanos : Nat
  deriving DecidableEq

namespace Duration

def ofSecs (n : Nat) : Duration := ⟨n * 1000000000⟩

def ofMillis (n : Nat) : Duration := ⟨n * 1000000⟩

def asSecs (d : Duration) : Nat := d.nanos / 1000000000

end Duration

/-- The functions of other crates that the modelled code calls. -/
structure Crates where
  /-- The standard library's Unicode tables. -/
  unicode : Unicode
  /-- `NaiveDate::parse_from_str(_, "%Y-%m-%d")`. -/
  parseDate : Str → Option NaiveDate
  /-- `NaiveDate::to_string`. -/
  showDate : NaiveDate → Str
  /-- `DateTime::parse_from_rfc3339`, moved to UTC. -/
  parseRfc3339 : Str → Option DateTime
  /-- `DateTime::<Utc>::to_rfc3339`. -/
  showRfc3339 : DateTime → Str
  /-- `humantime::parse_duration`. -/
  parseDuration : Str → Option Duration
  /-- `serde_json::to_vec` of a value, which has string keys only and cannot fail. -/
  toVec : Json → Bytes
  /-- `serde_json::from_slice` into a `Value`. -/
  fromSlice : Bytes → Option Json
  /-- `Sha256`, as lowercase hexadecimal digits. -/
  sha256Hex : Bytes → Str
  /-- Dates and instants print differently when they differ. -/
  showDate_injective : Function.Injective showDate
  showRfc3339_injective : Function.Injective showRfc3339
  /-- The compact form of arrays and objects. -/
  toVec_array : ∀ items, toVec (.array items) =
    Text.utf8 ['['] ++ (Text.utf8 [',']).intercalate (items.map toVec) ++ Text.utf8 [']']
  toVec_object : ∀ members, toVec (.object members) =
    Text.utf8 ['\x7b'] ++
      (Text.utf8 [',']).intercalate
        (members.map (fun entry => toVec (.string entry.1) ++ Text.utf8 [':'] ++ toVec entry.2)) ++
      Text.utf8 ['\x7d']
  /-- A digest is 64 lowercase hexadecimal digits. -/
  sha256Hex_length : ∀ bytes, (sha256Hex bytes).length = 64
  sha256Hex_digits : ∀ bytes, ∀ c ∈ sha256Hex bytes,
    (48 ≤ c.toNat ∧ c.toNat ≤ 57) ∨ (97 ≤ c.toNat ∧ c.toNat ≤ 102)

/-! ## Concrete functions

What the crates compute on plain input: ASCII texts, durations in whole units, JSON
without floats. No text reads as a date there, and the spelling of dates is only
some injective one. They serve to run the model on concrete requests. -/

namespace Crates.Plain

def escapeChar (c : Char) : Str :=
  if c = '"' then "\\\"".str
  else if c = '\\' then "\\\\".str
  else if c.toNat = 8 then "\\b".str
  else if c.toNat = 9 then "\\t".str
  else if c.toNat = 10 then "\\n".str
  else if c.toNat = 12 then "\\f".str
  else if c.toNat = 13 then "\\r".str
  else if c.toNat < 32 then
    "\\u00".str ++ [Nat.digitChar (c.toNat / 16), Nat.digitChar (c.toNat % 16)]
  else [c]

def renderString (s : Str) : Bytes := Text.utf8 ('"' :: s.flatMap escapeChar ++ ['"'])

mutual

/-- Compact JSON text. -/
def render : Json → Bytes
  | .null => Text.utf8 "null".str
  | .bool b => Text.utf8 (Text.showBool b)
  | .number (.int n) => Text.utf8 (Text.showInt n)
  | .number (.float x) => Text.utf8 x.toText
  | .string s => renderString s
  | .array items =>
    Text.utf8 ['['] ++ (Text.utf8 [',']).intercalate (renderItems items) ++ Text.utf8 [']']
  | .object members =>
    Text.utf8 ['\x7b'] ++ (Text.utf8 [',']).intercalate (renderMembers members) ++
      Text.utf8 ['\x7d']

def renderItems : List Json → List Bytes
  | [] => []
  | item :: rest => render item :: renderItems rest

def renderMembers : List (Str × Json) → List Bytes
  | [] => []
  | (key, value) :: rest =>
    (renderString key ++ Text.utf8 [':'] ++ render value) :: renderMembers rest

end

theorem render_array (items : List Json) : render (.array items) =
    Text.utf8 ['['] ++ (Text.utf8 [',']).intercalate (items.map render) ++ Text.utf8 [']'] := by
  have mapped : renderItems items = items.map render := by
    induction items with
    | nil => rfl
    | cons item rest inductionHypothesis => rw [renderItems, inductionHypothesis, List.map_cons]
  rw [render, mapped]

theorem render_object (members : List (Str × Json)) : render (.object members) =
    Text.utf8 ['\x7b'] ++
      (Text.utf8 [',']).intercalate
        (members.map (fun entry => render (.string entry.1) ++ Text.utf8 [':'] ++ render entry.2)) ++
      Text.utf8 ['\x7d'] := by
  have mapped : renderMembers members =
      members.map (fun entry => render (.string entry.1) ++ Text.utf8 [':'] ++ render entry.2) := by
    induction members with
    | nil => rfl
    | cons entry rest inductionHypothesis =>
      rw [renderMembers, inductionHypothesis, List.map_cons, render]
  rw [render, mapped]

/-- A duration of one whole unit. -/
def parseDuration (s : Str) : Option Duration :=
  let digits := s.takeWhile Text.isAsciiDigit
  let unit := s.dropWhile Text.isAsciiDigit
  let seconds : Option Nat :=
    if unit = "s".str then some 1
    else if unit = "m".str then some 60
    else if unit = "h".str then some 3600
    else if unit = "d".str then some 86400
    else none
  match Text.parseDigits digits, seconds with
  | some n, some size => some (Duration.ofSecs (n * size))
  | _, _ => none

end Crates.Plain

def Crates.plain : Crates where
  unicode := Unicode.ascii
  parseDate _ := none
  showDate d := Text.showInt d.days
  parseRfc3339 _ := none
  showRfc3339 t := Text.showNat (Nat.pair (Equiv.intEquivNat t.seconds) t.nanos)
  parseDuration := Crates.Plain.parseDuration
  toVec := Crates.Plain.render
  fromSlice _ := none
  showDate_injective d e same := by
    cases d
    cases e
    exact congrArg NaiveDate.mk (Text.showInt_injective same)
  showRfc3339_injective t u same := by
    have paired := Nat.pair_eq_pair.mp (Text.showNat_injective same)
    cases t
    cases u
    exact (DateTime.mk.injEq _ _ _ _).mpr ⟨Equiv.intEquivNat.injective paired.1, paired.2⟩
  toVec_array := Crates.Plain.render_array
  toVec_object := Crates.Plain.render_object
  sha256Hex := Sha256.hex
  sha256Hex_length := Sha256.hex_length
  sha256Hex_digits := Sha256.hex_digits

end LumidPlatform
