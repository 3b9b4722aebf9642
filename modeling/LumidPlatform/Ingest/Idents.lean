import LumidPlatform.Backend
import LumidPlatform.Crates

/-!
# Identifiers and suggested schemas

Names of schemas, tables and columns are trimmed and lower-cased, and have to be plain
identifiers then. A schema is suggested for records by their keys and values, and what a
builder proposes instead is brought into the same form.
-/

namespace LumidPlatform.Ingest

/-- A character of an identifier. -/
def isIdentChar (c : Char) : Bool := Text.isAsciiLower c || Text.isAsciiDigit c || c == '_'

/-- `norm_ident`, the same in every module of the source. -/
def normIdent (unicode : Unicode) (s : Str) : Option Str :=
  let l := unicode.toLowercase (Text.trim s)
  if !l.isEmpty && Text.byteLen l ≤ 63 &&
      l.head?.any (fun c => Text.isAsciiLower c || c == '_') && l.all isIdentChar
  then some l else none

/-! ## Suggested schemas -/

/-- The columns of a sample in name order, each with its values. -/
abbrev Columns := List (Str × List Json)

/-- `entry(c).or_default().push(v)` on a sorted map. -/
def Columns.push (column : Str) (value : Json) : Columns → Columns
  | [] => [(column, [value])]
  | (name, values) :: rest =>
    if name = column then (name, values ++ [value]) :: rest
    else if Text.le column name then (column, [value]) :: (name, values) :: rest
    else (name, values) :: Columns.push column value rest

/-- `PROVENANCE_COLS` of the proposals. -/
def provenanceCols : List Str :=
  ["source".str, "source_endpoint".str, "source_run_id".str, "ingest_ts".str, "raw".str]

/-- One entry of a record: a usable column, or a key that is skipped. -/
def collectEntry (unicode : Unicode) (collected : Columns × List Str) (entry : Str × Json) :
    Columns × List Str :=
  match normIdent unicode entry.1 with
  | some c =>
    if provenanceCols.contains c then collected
    else (collected.1.push c entry.2, collected.2)
  | none =>
    if collected.2.contains entry.1 then collected
    else (collected.1, collected.2 ++ [entry.1])

/-- The usable columns of the records, and the keys that are not. -/
def collectColumns (unicode : Unicode) (records : List Json) : Columns × List Str :=
  (records.filterMap Json.asObject?).foldl
    (fun collected record => record.foldl (collectEntry unicode) collected) ([], [])

def inferType (values : List Json) : Str :=
  let isText (v : Json) : Bool := match v with | .string _ => true | _ => false
  let isFloat (v : Json) : Bool := match v with | .number (.float _) => true | _ => false
  let isInt (v : Json) : Bool := match v with | .number (.int _) => true | _ => false
  let isBool (v : Json) : Bool := match v with | .bool _ => true | _ => false
  let isNested (v : Json) : Bool := match v with | .array _ => true | .object _ => true | _ => false
  if values.any isNested then "jsonb".str
  else if values.any isText then "text".str
  else if values.any isFloat then "double precision".str
  else if values.any isInt then "bigint".str
  else if values.any isBool then "boolean".str
  else "text".str

def endsWith (s word : Str) : Bool := word.isSuffixOf s

/-- `infer_natural_key`, over the column names in order. -/
def inferNaturalKey (names : List Str) : List Str :=
  let entity := names.filter (fun c =>
    let l := Text.toAsciiLowercase c
    l == "id".str || endsWith l "_id".str || l == "key".str || l == "code".str)
  if entity.isEmpty then names
  else
    let times := ["ts_event_ns".str, "ts_event".str, "ts".str, "timestamp".str, "date".str,
      "time".str]
    entity ++ (times.find? names.contains).toList

def suggestBackend (key : List Str) : BackendKind :=
  let hasTimeCol := key.any (fun k =>
    let k := Text.toAsciiLowercase k
    Text.startsWith k "ts".str || k == "timestamp".str || k == "date".str || k == "time".str)
  if hasTimeCol then .clickHouse else .postgres

/-! ## Proposed schemas -/

/-- `PROVENANCE_COLS` of the schema suggestions, with the surrogate key. -/
def reservedCols : List Str := provenanceCols ++ ["id".str]

def allowedTypes : List Str := [
  "text".str, "bigint".str, "integer".str, "double precision".str, "numeric".str, "boolean".str,
  "jsonb".str, "timestamptz".str, "date".str, "uuid".str]

/-- `validate`: usable columns with allowed types, and the key columns among them. -/
def validate (unicode : Unicode) (columns : Json) (key : List Str) :
    Except Str (JsonMap × List Str) :=
  match columns.asObject? with
  | none => .error "columns must be an object {name: pgtype}".str
  | some proposed =>
    let typeOf (ty : Json) : Str :=
      let wanted := unicode.toLowercase (Text.trim (ty.asStr?.getD "text".str))
      if allowedTypes.contains wanted then wanted else "text".str
    let out := proposed.foldl (fun out (entry : Str × Json) =>
      match normIdent unicode entry.1 with
      | some cn =>
        if reservedCols.contains cn then out
        else JsonMap.insert cn (.string (typeOf entry.2)) out
      | none => out) []
    if out.isEmpty then .error "no usable columns after validation".str
    else
      .ok (out, (key.filterMap (normIdent unicode)).filter
        (fun k => (JsonMap.get out k).isSome))

/-! ## Normal names -/

/-- A name that is its own normal form. -/
def Normal (unicode : Unicode) (s : Str) : Prop := normIdent unicode s = some s

theorem isIdentChar_plain {c : Char} (ident : isIdentChar c = true) :
    Text.isAscii c = true ∧ Text.isAsciiUpper c = false ∧ Text.isWhitespace c = false ∧ c ≠ '.' := by
  have range : (97 ≤ c.toNat ∧ c.toNat ≤ 122) ∨ (48 ≤ c.toNat ∧ c.toNat ≤ 57) ∨ c.toNat = 95 := by
    simp only [isIdentChar, Text.isAsciiLower, Text.isAsciiDigit, Bool.or_eq_true,
      Bool.and_eq_true, decide_eq_true_eq, beq_iff_eq] at ident
    rcases ident with (lower | digit) | rfl
    · exact Or.inl lower
    · exact Or.inr (Or.inl digit)
    · exact Or.inr (Or.inr rfl)
  refine ⟨?_, ?_, ?_, ?_⟩
  · simp only [Text.isAscii, decide_eq_true_eq]
    omega
  · simp only [Text.isAsciiUpper, Bool.and_eq_false_iff, decide_eq_false_iff_not]
    omega
  · simp only [Text.isWhitespace, Bool.or_eq_false_iff, Bool.and_eq_false_iff,
      decide_eq_false_iff_not, beq_eq_false_iff_ne]
    omega
  · rintro rfl
    exact absurd range (by decide)

/-- A text without white space is trimmed already. -/
theorem trim_of_visible {s : Str} (visible : ∀ c ∈ s, Text.isWhitespace c = false) :
    Text.trim s = s := by
  have start : ∀ {t : Str}, (∀ c ∈ t, Text.isWhitespace c = false) →
      t.dropWhile Text.isWhitespace = t := by
    intro t plain
    cases t with
    | nil => rfl
    | cons c rest => simp [plain c List.mem_cons_self]
  rw [Text.trim, Text.trimStart, start visible, Text.trimEnd,
    start (fun c member => visible c (List.mem_reverse.mp member)), List.reverse_reverse]

/-- A short text of the characters of identifiers is normal, if it does not start with a digit. -/
theorem normal_of_letters {unicode : Unicode} {s : Str}
    (checked : (!s.isEmpty && Text.byteLen s ≤ 63 &&
      s.head?.any (fun c => Text.isAsciiLower c || c == '_') && s.all isIdentChar) = true) :
    Normal unicode s := by
  have letters : ∀ c ∈ s, isIdentChar c = true := by
    simp only [Bool.and_eq_true, List.all_eq_true] at checked
    exact checked.2
  have same : unicode.toLowercase (Text.trim s) = s := by
    rw [trim_of_visible (fun c member => (isIdentChar_plain (letters c member)).2.2.1)]
    calc unicode.toLowercase s
        = Text.toAsciiLowercase s :=
          unicode.toLowercaseFrom_ascii [] _
            (fun c member => (isIdentChar_plain (letters c member)).1)
      _ = s.map id := by
          apply List.map_congr_left
          intro c member
          simp [Text.asciiLower, (isIdentChar_plain (letters c member)).2.1]
      _ = s := List.map_id _
  rw [Normal, normIdent, same, if_pos checked]

/-- A normalised name is normal. -/
theorem normal_of_normIdent {unicode : Unicode} {s l : Str} (found : normIdent unicode s = some l) :
    Normal unicode l := by
  rw [normIdent] at found
  split_ifs at found with checked
  obtain rfl := Option.some.inj found
  exact normal_of_letters checked

/-- A normal name has no dot. -/
theorem Normal.no_dot {unicode : Unicode} {s : Str} (normal : Normal unicode s) : '.' ∉ s := by
  rw [Normal, normIdent] at normal
  split_ifs at normal with checked
  have same := Option.some.inj normal
  simp only [same, Bool.and_eq_true, List.all_eq_true] at checked
  intro member
  exact (isIdentChar_plain (checked.2 '.' member)).2.2.2 rfl

end LumidPlatform.Ingest
