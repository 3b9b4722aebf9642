import LumidPlatform.Crates
import LumidPlatform.Decimals

/-!
# JSON documents

The database holds a number of a JSON document by its digits, however many there are. It is
read as an integer of 64 bits or as the nearest `f64`. So a document is read as what it is
where its numbers are, where no object has a key twice, and where it is not nested too deep.
-/

namespace LumidPlatform.Db

/-! ## Documents -/

/-- A JSON document, as the database holds it. -/
inductive Document where
  | null
  | bool (b : Bool)
  /-- A number, by its digits. -/
  | number (text : Str)
  | string (s : Str)
  /-- A string with half a surrogate pair, which the type `json` takes. -/
  | halved
  | array (items : List Document)
  | object (members : List (Str × Document))

namespace Document

mutual

/-- How deep arrays and objects are nested. -/
def depth : Document → Nat
  | .array items => depthItems items + 1
  | .object members => depthMembers members + 1
  | _ => 0

def depthItems : List Document → Nat
  | [] => 0
  | item :: rest => max (depth item) (depthItems rest)

def depthMembers : List (Str × Document) → Nat
  | [] => 0
  | (_, item) :: rest => max (depth item) (depthMembers rest)

end

/-! ## Reading -/

/-- A number without point and exponent. The negative zero is none. -/
def integerOf : Str → Option Int
  | '-' :: digits => (Text.parseDigits digits).bind (fun n => if n = 0 then none else some (-n))
  | digits => (Text.parseDigits digits).map (fun n : Nat => (n : Int))

/-- The nearest `f64`, unless it is out of range. -/
def readFloat (text : Str) : Option JsonNumber :=
  ((F64.parse text).filter (fun x => !(x.isNan || x.isInfinite))).map .float

/-- An integer that an `i64` or a `u64` can be is read as one. -/
def readNumber (text : Str) : Option JsonNumber :=
  match integerOf text with
  | some n => if -2 ^ 63 ≤ n ∧ n < 2 ^ 64 then some (.int n) else readFloat text
  | none => readFloat text

/-- The members of an object, inserted one after the other. -/
def collect (members : List (Str × Json)) : JsonMap :=
  members.foldl (fun map entry => JsonMap.insert entry.1 entry.2 map) []

mutual

/-- The `serde_json::Value` of a document, whatever its depth. -/
def readValue : Document → Option Json
  | .null => some .null
  | .bool b => some (.bool b)
  | .number text => (readNumber text).map .number
  | .string s => some (.string s)
  | .halved => none
  | .array items => (readItems items).map .array
  | .object members => (readMembers members).map (fun read => .object (collect read))

def readItems : List Document → Option (List Json)
  | [] => some []
  | item :: rest =>
    match readValue item, readItems rest with
    | some value, some values => some (value :: values)
    | _, _ => none

def readMembers : List (Str × Document) → Option (List (Str × Json))
  | [] => some []
  | (key, item) :: rest =>
    match readValue item, readMembers rest with
    | some value, some values => some ((key, value) :: values)
    | _, _ => none

end

/-- `serde_json::from_slice`. -/
def value (document : Document) : Option Json :=
  if document.depth < recursionLimit then document.readValue else none

/-! ## What JSON stands for -/

/-- The number that a JSON number stands for. -/
def denoted (reading : F64.Reading) : JsonNumber → Option ℚ
  | .int n => some n
  | .float x => x.denotes reading

mutual

/-- A JSON value is a document: it has the same shape, keys and strings, and each of its numbers
stands for the one that the document has there. -/
def Stands (reading : F64.Reading) : Document → Json → Prop
  | .null, .null => True
  | .bool b, .bool c => b = c
  | .number text, .number n =>
    ∃ q, F64.decimalValue text = some q ∧ denoted reading n = some q
  | .string s, .string t => s = t
  | .array items, .array values => StandItems reading items values
  | .object members, .object values => StandMembers reading members values
  | _, _ => False

def StandItems (reading : F64.Reading) : List Document → List Json → Prop
  | [], [] => True
  | item :: items, value :: values => Stands reading item value ∧ StandItems reading items values
  | _, _ => False

def StandMembers (reading : F64.Reading) : List (Str × Document) → List (Str × Json) → Prop
  | [], [] => True
  | (key, item) :: items, (name, value) :: values =>
    key = name ∧ Stands reading item value ∧ StandMembers reading items values
  | _, _ => False

end

/-- A number is an integer of 64 bits, or one that some `f64` stands for. -/
def ExactNumber (reading : F64.Reading) (text : Str) : Prop :=
  ∃ q, F64.decimalValue text = some q ∧
    ((∃ n, integerOf text = some n ∧ -2 ^ 63 ≤ n ∧ n < 2 ^ 64) ∨
      ∃ x : F64, x.denotes reading = some q)

mutual

/-- All numbers of a document are integers of 64 bits or ones that some `f64` stands for, no
object has a key twice, and no string has half a surrogate pair. -/
def Exact (reading : F64.Reading) : Document → Prop
  | .number text => ExactNumber reading text
  | .halved => False
  | .array items => ExactItems reading items
  | .object members => (members.map Prod.fst).Nodup ∧ ExactMembers reading members
  | _ => True

def ExactItems (reading : F64.Reading) : List Document → Prop
  | [] => True
  | item :: rest => Exact reading item ∧ ExactItems reading rest

def ExactMembers (reading : F64.Reading) : List (Str × Document) → Prop
  | [] => True
  | (_, item) :: rest => Exact reading item ∧ ExactMembers reading rest

end

variable {reading : F64.Reading}

/-! ## Numbers -/

theorem digits_of_parseDigits {s : Str} {n : Nat} (read : Text.parseDigits s = some n) :
    ∀ c ∈ s, Text.isAsciiDigit c = true := by
  rw [Text.parseDigits] at read
  split_ifs at read with wrong
  rw [Bool.or_eq_true, not_or, Bool.not_eq_true', Bool.not_eq_false] at wrong
  exact List.all_eq_true.mp wrong.2

/-- The digits of an integer name it. -/
theorem decimalValue_integerOf {text : Str} {n : Int} (whole : integerOf text = some n) :
    F64.decimalValue text = some (n : ℚ) := by
  rw [integerOf.eq_def] at whole
  split at whole
  next digits =>
    obtain ⟨m, read, same⟩ := Option.bind_eq_some_iff.mp whole
    split_ifs at same
    obtain rfl := Option.some.inj same
    rw [F64.decimalValue, F64.parseDecimal_whole (digits_of_parseDigits read) read]
    simp
  next digits plain =>
    obtain ⟨m, read, rfl⟩ := Option.map_eq_some_iff.mp whole
    rw [F64.decimalValue.eq_2 _ (fun rest same => plain rest same),
      F64.parseDecimal_whole (digits_of_parseDigits read) read]
    simp

/-- A zero with a sign stands for zero. -/
theorem denotes_zero (negative : Bool) :
    (F64.ofMagnitude negative 0).denotes reading = some 0 := by
  have size := F64.magnitude_ofMagnitude_zero negative
  obtain ⟨number, finite⟩ := F64.finite_of_magnitude (x := F64.ofMagnitude negative 0)
    (by rw [size, F64.limit_eq.symm]; positivity)
  unfold F64.denotes
  rw [number, finite, Bool.or_self, if_neg Bool.false_ne_true]
  cases reading with
  | bits => simp [F64.value, size]
  | digits =>
    dsimp only
    rw [F64.toText, number, finite, if_neg Bool.false_ne_true, if_neg Bool.false_ne_true,
      if_pos size]
    cases (F64.ofMagnitude negative 0).negative <;> decide +kernel

/-- Digits that some `f64` stands for are read as one that does. -/
theorem parse_denotes {text : Str} {q : ℚ} (named : F64.decimalValue text = some q) {x : F64}
    (stands : x.denotes reading = some q) :
    ∃ y, F64.parse text = some y ∧ y.denotes reading = some q := by
  by_cases zero : q = 0
  · subst zero
    rw [F64.decimalValue.eq_def] at named
    split at named
    next rest =>
      obtain ⟨size, read, none_⟩ := Option.map_eq_some_iff.mp named
      obtain rfl := neg_eq_zero.mp none_
      exact ⟨_, F64.parse_signed true read, denotes_zero true⟩
    next rest plain => exact ⟨_, F64.parse_signed false named, denotes_zero false⟩
  · exact ⟨F64.nearest q, F64.parse_of_decimalValue named zero, F64.nearest_denotes zero stands⟩

/-- A number is read as one that stands for it exactly if it is an integer of 64 bits or some
`f64` stands for it. -/
theorem readNumber_iff (text : Str) :
    (∃ n, readNumber text = some n ∧
      ∃ q, F64.decimalValue text = some q ∧ denoted reading n = some q) ↔
      ExactNumber reading text := by
  constructor
  · rintro ⟨n, read, q, named, same⟩
    refine ⟨q, named, ?_⟩
    have float (read : readFloat text = some n) : ∃ x : F64, x.denotes reading = some q := by
      obtain ⟨x, -, rfl⟩ := Option.map_eq_some_iff.mp read
      exact ⟨x, same⟩
    rw [readNumber] at read
    split at read
    next m whole =>
      split_ifs at read with fits
      · exact Or.inl ⟨m, whole, fits⟩
      · exact Or.inr (float read)
    next => exact Or.inr (float read)
  · rintro ⟨q, named, exact_⟩
    by_cases fits : ∃ n, integerOf text = some n ∧ -2 ^ 63 ≤ n ∧ n < 2 ^ 64
    · obtain ⟨n, whole, within⟩ := fits
      refine ⟨.int n, ?_, q, named, ?_⟩
      · simp only [readNumber, whole, if_pos within]
      · rw [decimalValue_integerOf whole] at named
        exact named
    · obtain ⟨x, stands⟩ := exact_.resolve_left fits
      obtain ⟨y, parsed, stands⟩ := parse_denotes named stands
      obtain ⟨number, finite⟩ := F64.finite_of_denotes stands
      have float : readFloat text = some (.float y) := by
        rw [readFloat, parsed]
        simp [Option.filter, number, finite]
      refine ⟨.float y, ?_, q, named, stands⟩
      rw [readNumber]
      split
      next n whole =>
        rw [if_neg (fun within => fits ⟨n, whole, within⟩)]
        exact float
      next => exact float

/-! ## Objects -/

/-- An insertion keeps the keys apart. -/
theorem insert_keys (key : Str) (value : Json) (map : JsonMap) :
    (JsonMap.insert key value map).map Prod.fst =
      if key ∈ map.map Prod.fst then map.map Prod.fst else map.map Prod.fst ++ [key] := by
  induction map with
  | nil => rfl
  | cons entry rest inductionHypothesis =>
    rw [JsonMap.insert]
    by_cases here : entry.1 = key
    · rw [if_pos here, List.map_cons, List.map_cons, if_pos (here ▸ List.mem_cons_self)]
    · rw [if_neg here, List.map_cons, List.map_cons, inductionHypothesis]
      simp only [List.mem_cons, Ne.symm here, false_or]
      split_ifs <;> rfl

theorem insert_new {key : Str} {value : Json} {map : JsonMap} (new : key ∉ map.map Prod.fst) :
    JsonMap.insert key value map = map ++ [(key, value)] := by
  induction map with
  | nil => rfl
  | cons entry rest inductionHypothesis =>
    rw [List.map_cons, List.mem_cons, not_or] at new
    rw [JsonMap.insert, if_neg (Ne.symm new.1), inductionHypothesis new.2, List.cons_append]

/-- No key of a map is there twice. -/
theorem collect_nodup (members : List (Str × Json)) : ((collect members).map Prod.fst).Nodup := by
  have kept (start : JsonMap) (apart : (start.map Prod.fst).Nodup) :
      ((members.foldl (fun map entry => JsonMap.insert entry.1 entry.2 map) start).map
        Prod.fst).Nodup := by
    induction members generalizing start with
    | nil => exact apart
    | cons entry rest inductionHypothesis =>
      refine inductionHypothesis _ ?_
      rw [insert_keys]
      split_ifs with known
      · exact apart
      · exact apart.append (List.nodup_singleton _) (List.disjoint_singleton.mpr known)
  exact kept [] List.nodup_nil

/-- Members without a key twice are collected as they are. -/
theorem collect_self {members : List (Str × Json)} (apart : (members.map Prod.fst).Nodup) :
    collect members = members := by
  have appended (start : JsonMap) (whole : ((start ++ members).map Prod.fst).Nodup) :
      members.foldl (fun map entry => JsonMap.insert entry.1 entry.2 map) start =
        start ++ members := by
    clear apart
    induction members generalizing start with
    | nil => rw [List.foldl_nil, List.append_nil]
    | cons entry rest inductionHypothesis =>
      have new : entry.1 ∉ start.map Prod.fst := by
        rw [List.map_append, List.map_cons] at whole
        exact fun known => List.disjoint_of_nodup_append whole known List.mem_cons_self
      rw [List.foldl_cons, insert_new new, inductionHypothesis, List.append_assoc,
        List.singleton_append]
      rw [List.append_assoc, List.singleton_append]
      exact whole
  exact appended [] apart

theorem readMembers_keys {members : List (Str × Document)} {read : List (Str × Json)}
    (found : readMembers members = some read) : read.map Prod.fst = members.map Prod.fst := by
  induction members generalizing read with
  | nil =>
    obtain rfl := Option.some.inj found
    rfl
  | cons member rest inductionHypothesis =>
    obtain ⟨key, item⟩ := member
    rw [readMembers] at found
    split at found
    next value values first others =>
      obtain rfl := Option.some.inj found
      rw [List.map_cons, List.map_cons, inductionHypothesis others]
    next => cases found

theorem StandMembers.keys {members : List (Str × Document)} {values : List (Str × Json)}
    (stand : StandMembers reading members values) :
    members.map Prod.fst = values.map Prod.fst := by
  induction members generalizing values with
  | nil =>
    cases values with
    | nil => rfl
    | cons value rest => exact stand.elim
  | cons member rest inductionHypothesis =>
    cases values with
    | nil => exact stand.elim
    | cons value others =>
      obtain ⟨same, -, later⟩ := stand
      rw [List.map_cons, List.map_cons, inductionHypothesis later, same]

/-! ## Documents that are read as they are -/

mutual

/-- A document is read as a value that stands for it exactly if its numbers are exact, its
strings whole and the keys of its objects apart. -/
theorem readValue_stands_iff : ∀ document : Document,
    (∃ json, document.readValue = some json ∧ document.Stands reading json) ↔
      document.Exact reading
  | .null => iff_of_true ⟨.null, rfl, trivial⟩ trivial
  | .bool b => iff_of_true ⟨.bool b, rfl, rfl⟩ trivial
  | .string s => iff_of_true ⟨.string s, rfl, rfl⟩ trivial
  | .halved => iff_of_false (by rintro ⟨_, read, -⟩; cases read) id
  | .number text => by
    rw [Exact, ← readNumber_iff]
    constructor
    · rintro ⟨json, read, stands⟩
      obtain ⟨n, found, rfl⟩ := Option.map_eq_some_iff.mp read
      exact ⟨n, found, stands⟩
    · rintro ⟨n, found, stands⟩
      exact ⟨.number n, by rw [readValue, found]; rfl, stands⟩
  | .array items => by
    rw [Exact, ← readItems_stand_iff items]
    constructor
    · rintro ⟨json, read, stands⟩
      obtain ⟨values, found, rfl⟩ := Option.map_eq_some_iff.mp read
      exact ⟨values, found, stands⟩
    · rintro ⟨values, found, stands⟩
      exact ⟨.array values, by rw [readValue, found]; rfl, stands⟩
  | .object members => by
    rw [Exact, ← readMembers_stand_iff members]
    constructor
    · rintro ⟨json, read, stands⟩
      obtain ⟨values, found, rfl⟩ := Option.map_eq_some_iff.mp read
      have stands : StandMembers reading members (collect values) := stands
      have apart : (members.map Prod.fst).Nodup := stands.keys ▸ collect_nodup values
      rw [collect_self (readMembers_keys found ▸ apart)] at stands
      exact ⟨apart, values, found, stands⟩
    · rintro ⟨apart, values, found, stands⟩
      refine ⟨.object (collect values), by rw [readValue, found]; rfl, ?_⟩
      rw [collect_self (readMembers_keys found ▸ apart)]
      exact stands

theorem readItems_stand_iff : ∀ items : List Document,
    (∃ values, readItems items = some values ∧ StandItems reading items values) ↔
      ExactItems reading items
  | [] => iff_of_true ⟨[], rfl, trivial⟩ trivial
  | item :: rest => by
    rw [ExactItems, ← readValue_stands_iff item, ← readItems_stand_iff rest]
    constructor
    · rintro ⟨values, read, stand⟩
      rw [readItems] at read
      split at read
      next value others first later =>
        obtain rfl := Option.some.inj read
        exact ⟨⟨value, first, stand.1⟩, others, later, stand.2⟩
      next => cases read
    · rintro ⟨⟨value, first, stands⟩, others, later, stand⟩
      exact ⟨value :: others, by rw [readItems, first, later], stands, stand⟩

theorem readMembers_stand_iff : ∀ members : List (Str × Document),
    (∃ values, readMembers members = some values ∧ StandMembers reading members values) ↔
      ExactMembers reading members
  | [] => iff_of_true ⟨[], rfl, trivial⟩ trivial
  | (key, item) :: rest => by
    rw [ExactMembers, ← readValue_stands_iff item, ← readMembers_stand_iff rest]
    constructor
    · rintro ⟨values, read, stand⟩
      rw [readMembers] at read
      split at read
      next value others first later =>
        obtain rfl := Option.some.inj read
        exact ⟨⟨value, first, stand.2.1⟩, others, later, stand.2.2⟩
      next => cases read
    · rintro ⟨⟨value, first, stands⟩, others, later, stand⟩
      exact ⟨(key, value) :: others, by rw [readMembers, first, later], rfl, stands, stand⟩

end

/-- Only the null is read as null. -/
theorem readValue_null {document : Document} :
    document.readValue = some .null ↔ document = .null := by
  cases document with
  | null => exact iff_of_true rfl rfl
  | bool | string | halved | number | array | object => simp [readValue]

/-- A document that is not null is read as a value other than null that stands for it exactly if
it is exact and not too deep. -/
theorem value_kept_iff (document : Document) :
    (document.value.getD .null ≠ .null ∧ document.Stands reading (document.value.getD .null)) ↔
      document ≠ .null ∧ document.depth < recursionLimit ∧ document.Exact reading := by
  rw [← readValue_stands_iff, value]
  by_cases shallow : document.depth < recursionLimit
  · rw [if_pos shallow]
    cases read : document.readValue with
    | none => simp
    | some json =>
      have null : json = .null ↔ document = .null := by
        rw [← readValue_null, read, Option.some.injEq]
      rw [Option.getD_some, Ne, null]
      simp [shallow]
  · rw [if_neg shallow]
    exact iff_of_false (fun kept => kept.1 rfl) (fun kept => shallow kept.2.1)

end Document

end LumidPlatform.Db
