import LumidPlatform.Lib.Assoc
import LumidPlatform.Sync.Replication

/-!
# Which rows are preserved

The stages a row goes through were written for other inputs: the validator knows only the
columns a partner may send, and the coercion takes several words for missing values and cuts
dates. A row arrives as it was exactly if none of this meets it.
-/

namespace LumidPlatform.Sync.RoundTrip

open LumidPlatform.Write

variable {wire : Wire} {pg : Postgres wire} {column : Column} {v : SqlValue} {value : Json}

/-! ## Documents -/

mutual

/-- A document that was read is printed as the same exactly if its numbers survive. -/
theorem prints_iff (sameNumber : Str → Str → Prop) :
    ∀ {doc : PgJson} {value : Json}, wire.readJson doc = some value →
      (wire.Prints sameNumber value doc ↔ wire.Survives sameNumber doc)
  | .null, value, read => by
    obtain rfl := Option.some.inj read
    simp [Wire.Prints, Wire.Survives]
  | .bool b, value, read => by
    obtain rfl := Option.some.inj read
    simp [Wire.Prints, Wire.Survives]
  | .string s, value, read => by
    obtain rfl := Option.some.inj read
    simp [Wire.Prints, Wire.Survives]
  | .number text, value, read => by
    rw [Wire.readJson] at read
    obtain ⟨n, number, rfl⟩ := Option.map_eq_some_iff.mp read
    simp [Wire.Prints, Wire.Survives, number]
  | .array items, value, read => by
    rw [Wire.readJson] at read
    obtain ⟨values, all, rfl⟩ := Option.map_eq_some_iff.mp read
    rw [Wire.Prints, Wire.Survives]
    exact printItems_iff sameNumber all
  | .object members, value, read => by
    rw [Wire.readJson] at read
    obtain ⟨values, all, rfl⟩ := Option.map_eq_some_iff.mp read
    rw [Wire.Prints, Wire.Survives]
    exact printMembers_iff sameNumber all

/-- The same for the items of an array, one by one. -/
theorem printItems_iff (sameNumber : Str → Str → Prop) :
    ∀ {items : List PgJson} {values : List Json}, wire.readItems items = some values →
      (wire.PrintItems sameNumber values items ↔ wire.SurviveItems sameNumber items)
  | [], values, read => by
    obtain rfl := Option.some.inj read
    simp [Wire.PrintItems, Wire.SurviveItems]
  | item :: rest, values, read => by
    rw [Wire.readItems] at read
    split at read
    · rename_i first others one more
      obtain rfl := Option.some.inj read
      rw [Wire.PrintItems, Wire.SurviveItems, prints_iff sameNumber one,
        printItems_iff sameNumber more]
    · cases read

/-- The same for the members of an object, whose names are kept. -/
theorem printMembers_iff (sameNumber : Str → Str → Prop) :
    ∀ {members : List (Str × PgJson)} {values : List (Str × Json)},
      wire.readMembers members = some values →
        (wire.PrintMembers sameNumber values members ↔ wire.SurviveMembers sameNumber members)
  | [], values, read => by
    obtain rfl := Option.some.inj read
    simp [Wire.PrintMembers, Wire.SurviveMembers]
  | (key, item) :: rest, values, read => by
    rw [Wire.readMembers] at read
    split at read
    · rename_i first others one more
      obtain rfl := Option.some.inj read
      rw [Wire.PrintMembers, Wire.SurviveMembers, prints_iff sameNumber one,
        printMembers_iff sameNumber more]
      simp
    · cases read

end

/-! ## Types -/

/-- A numeric type is none of the others that a cell is coerced for. -/
theorem number_type {t : Str} (number : (isNumeric t || isInteger t) = true) :
    isJson t = false ∧ isBoolean t = false ∧ isTexty t = false := by
  have names : t ∈ ["numeric".str, "decimal".str, "double precision".str, "real".str, "float".str,
      "float8".str, "float4".str, "int".str, "integer".str, "int4".str, "smallint".str, "int2".str,
      "bigint".str, "int8".str] := by
    simp only [isNumeric, isInteger, Bool.or_eq_true, List.contains_iff_mem] at number
    rcases number with numeric | integer
    · exact List.mem_append_left _ numeric
    · exact List.mem_append_right ["numeric".str, "decimal".str, "double precision".str,
        "real".str, "float".str, "float8".str, "float4".str] integer
  have all : ∀ t ∈ ["numeric".str, "decimal".str, "double precision".str, "real".str, "float".str,
      "float8".str, "float4".str, "int".str, "integer".str, "int4".str, "smallint".str, "int2".str,
      "bigint".str, "int8".str],
      isJson t = false ∧ isBoolean t = false ∧ isTexty t = false := by
    decide
  exact all t names

/-- A boolean type is not read as JSON. -/
theorem boolean_type {t : Str} (boolean : isBoolean t = true) : isJson t = false := by
  simp only [isBoolean, Bool.or_eq_true, decide_eq_true_eq] at boolean
  rcases boolean with rfl | rfl
  · decide
  · decide

/-- A field of the `COPY` other than the token for null is the text of the cell. -/
theorem copied_of_ne {s : Str} (other : s ≠ nullToken) : copied (some s) = some s := by
  rw [copied, Option.filter_some, if_pos (by simpa using other)]

/-- The token for null is copied as null. -/
theorem copied_token : copied (some nullToken) = none := by
  rw [copied, Option.filter_some, if_neg (by simp)]

/-- A text of a document is read as itself. -/
theorem readJson_string {s : Str} (read : wire.readJson (.string s) = some value) :
    value = .string s := by
  rw [Wire.readJson] at read
  exact (Option.some.inj read).symm

/-- A document is read if it is not nested too deep for serde_json and each of its parts is read. -/
theorem read_eq_some {doc : PgJson} :
    wire.read doc = some value ↔ doc.depth < recursionLimit ∧ wire.readJson doc = some value := by
  rw [Wire.read]
  split_ifs with shallow
  · simp [shallow]
  · simp [shallow]

/-! ## Values that survive -/

/-- A text that the coercion leaves alone: it is not blank, it is no word for a missing value
unless the column is of text, it is not the token, and it is no date before our era. -/
def PlainText (wire : Wire) (column : Column) (s : Str) : Prop :=
  let t := wire.unicode.toLowercase column.dataType
  Text.trim s ≠ [] ∧
    (isTexty t = true ∨ wire.unicode.toLowercase (Text.trim s) ∉ nullWords) ∧
    s ≠ nullToken ∧
    (t = "date".str → ∀ day, datePrefix s = some day → day = s)

/-- A value that arrives as it was: no array and no composite, no JSON `null` and no JSON
string, no `NaN`, and only numbers that `serde_json` carries unchanged. -/
def PlainValue (pg : Postgres wire) (column : Column) : SqlValue → Prop
  | .null => True
  | .bool _ => True
  | .number digits =>
    ∃ n, wire.readNumber digits = some n ∧ pg.Reads column (wire.showNumber n) (.number digits)
  | .special name => name ≠ "NaN".str
  | .json .null => False
  | .json (.string _) => False
  | .json doc => wire.Survives pg.sameNumber doc
  | .nested _ => False
  | .text s => PlainText wire column s

/-- A null of the `COPY` comes back as null only. -/
theorem parsesBack_null (pg : Postgres wire) (v : SqlValue) :
    ParsesBack pg column v none ↔ v = .null := by
  rw [ParsesBack, copied, Option.filter_none]

/-- Any other text comes back as what the column's input function reads from it. -/
theorem parsesBack_some {s : Str} (other : s ≠ nullToken) :
    ParsesBack pg column v (some s) ↔ pg.Reads column s v := by
  rw [ParsesBack, copied_of_ne other]

/-- A text that is the token for null comes back as null. -/
theorem parsesBack_token (pg : Postgres wire) (v : SqlValue) :
    ParsesBack pg column v (some nullToken) ↔ v = .null := by
  rw [ParsesBack, copied_token]

/-- Neither boolean is written as the token for null. -/
theorem showBool_ne (b : Bool) : Text.showBool b ≠ nullToken := by
  cases b
  · decide
  · decide

/-- Booleans come back. -/
theorem bool_parsesBack {b : Bool} (holds : pg.Holds column (.bool b)) :
    ParsesBack pg column (.bool b) (cellFor wire.toCoercion (.bool b) column.dataType) := by
  obtain ⟨typed, fits⟩ := pg.holds_typed holds
  have kind : column.kind = .boolean := by simpa [SqlValue.fits] using fits
  have boolean : isBoolean (wire.unicode.toLowercase column.dataType) = true := by
    simpa [Column.typed, kind] using typed
  have cell : cellFor wire.toCoercion (.bool b) column.dataType = some (Text.showBool b) := by
    simp [cellFor, boolean_type boolean, boolean]
  rw [cell, parsesBack_some (showBool_ne b)]
  exact pg.reads_bool holds

/-- A number comes back if Postgres reads the number that serde_json writes as the same value. -/
theorem number_parsesBack {digits : Str} {n : JsonNumber}
    (holds : pg.Holds column (.number digits)) :
    ParsesBack pg column (.number digits) (cellFor wire.toCoercion (.number n) column.dataType) ↔
      pg.Reads column (wire.showNumber n) (.number digits) := by
  obtain ⟨typed, fits⟩ := pg.holds_typed holds
  have kind : column.kind = .number := by simpa [SqlValue.fits] using fits
  have number : (isNumeric (wire.unicode.toLowercase column.dataType) ||
      isInteger (wire.unicode.toLowercase column.dataType)) = true := by
    simpa [Column.typed, kind] using typed
  have cell : cellFor wire.toCoercion (.number n) column.dataType = some (wire.showNumber n) := by
    simp only [cellFor, (number_type number).1, numberCell, number, if_true, Bool.false_eq_true,
      if_false]
  rw [cell, parsesBack_some (wire.showNumber_ne n)]

/-- `NaN` becomes null on the way, and the two infinities are copied by name. -/
theorem special_cell {name : Str} (holds : pg.Holds column (.special name)) :
    cellFor wire.toCoercion (.string name) column.dataType =
      if name = "NaN".str then none else some name := by
  obtain ⟨typed, fits⟩ := pg.holds_typed holds
  simp only [SqlValue.fits, Bool.and_eq_true, decide_eq_true_eq, List.contains_iff_mem] at fits
  obtain ⟨kind, listed⟩ := fits
  have number : (isNumeric (wire.unicode.toLowercase column.dataType) ||
      isInteger (wire.unicode.toLowercase column.dataType)) = true := by
    simpa [Column.typed, kind] using typed
  obtain ⟨json, boolean, texty⟩ := number_type number
  have lower : wire.unicode.toLowercase name = Text.toAsciiLowercase name := by
    have ascii : ∀ name ∈ ["NaN".str, "Infinity".str, "-Infinity".str],
        name.all Text.isAscii = true := by
      decide
    exact wire.unicode.toLowercaseFrom_ascii [] name (List.all_eq_true.mp (ascii name listed))
  have cells : ∀ name ∈ ["NaN".str, "Infinity".str, "-Infinity".str],
      Text.trim name = name ∧ name.isEmpty = false ∧
        (nullWords.contains (Text.toAsciiLowercase name) = decide (name = "NaN".str)) ∧
        name.filter (· ≠ ',') = name ∧
        (name ≠ "NaN".str → badFloatTokens.contains (Text.toAsciiLowercase name) = false ∧
          Text.trimEndMatches '%' (name.dropWhile (· == '$')) = name ∧
          (F64.parse name).isSome = true) := by
    decide +kernel
  obtain ⟨trimmed, nonempty, word, commas, plain⟩ := cells name listed
  simp only [cellFor, json, stringCell, trimmed, nonempty, texty, lower, word, number,
    Bool.false_eq_true, if_false, Bool.not_false, Bool.true_and, if_true]
  by_cases nan : name = "NaN".str
  · simp [nan]
  · obtain ⟨good, cleaned, parsed⟩ := plain nan
    have parse : parseNumericStr wire.unicode name = some name := by
      rw [parseNumericStr]
      dsimp only
      rw [trimmed, commas, lower, nonempty, good, cleaned, parsed]
      simp
    simp [nan, parse]

/-- So of the three names only `NaN` is lost. -/
theorem special_parsesBack {name : Str} (holds : pg.Holds column (.special name)) :
    ParsesBack pg column (.special name)
      (cellFor wire.toCoercion (.string name) column.dataType) ↔ name ≠ "NaN".str := by
  rw [special_cell holds]
  by_cases nan : name = "NaN".str
  · rw [if_pos nan, parsesBack_null]
    simp [nan]
  · have other : name ≠ nullToken := by
      rintro rfl
      have fits := (pg.holds_typed holds).2
      simp only [SqlValue.fits, Bool.and_eq_true] at fits
      exact absurd fits.2 (by decide)
    rw [if_neg nan, parsesBack_some other]
    exact ⟨fun _ => nan, fun _ => pg.reads_special holds⟩

/-- What the coercion makes of a text: a blank one is null, as is a word for null in a column that
is not textual; a date is cut to its first ten characters; any other is copied as it is. -/
theorem text_cell {s : Str} (holds : pg.Holds column (.text s)) :
    cellFor wire.toCoercion (.string s) column.dataType =
      let t := wire.unicode.toLowercase column.dataType
      if Text.trim s = [] then none
      else if isTexty t = false ∧ wire.unicode.toLowercase (Text.trim s) ∈ nullWords then none
      else if t = "date".str then some ((datePrefix s).getD s)
      else some s := by
  obtain ⟨typed, fits⟩ := pg.holds_typed holds
  have kind : column.kind = .other := by simpa [SqlValue.fits] using fits
  have plain : isPlainType (wire.unicode.toLowercase column.dataType) = true := by
    simpa [Column.typed, kind] using typed
  simp only [isPlainType, Bool.and_eq_true, Bool.not_eq_true'] at plain
  obtain ⟨⟨⟨json, boolean⟩, numeric⟩, integer⟩ := plain
  simp only [cellFor, json, boolean, numeric, integer, stringCell, Bool.or_self, Bool.false_eq_true,
    if_false, List.isEmpty_iff, Bool.and_eq_true, Bool.not_eq_true', List.contains_iff_mem]
  by_cases date : wire.unicode.toLowercase column.dataType = "date".str
  · rw [(pg.reads_date holds date).1]
  · simp only [date, if_false]

/-- So a text comes back exactly if it is plain. -/
theorem text_parsesBack {s : Str} (holds : pg.Holds column (.text s)) :
    ParsesBack pg column (.text s) (cellFor wire.toCoercion (.string s) column.dataType) ↔
      PlainText wire column s := by
  rw [text_cell holds, PlainText]
  dsimp only
  by_cases blank : Text.trim s = []
  · rw [if_pos blank, parsesBack_null]
    simp [blank]
  rw [if_neg blank]
  by_cases word : isTexty (wire.unicode.toLowercase column.dataType) = false ∧
      wire.unicode.toLowercase (Text.trim s) ∈ nullWords
  · rw [if_pos word, parsesBack_null]
    simp [word.1, word.2]
  rw [if_neg word]
  have notWord : isTexty (wire.unicode.toLowercase column.dataType) = true ∨
      wire.unicode.toLowercase (Text.trim s) ∉ nullWords := by
    rw [← Bool.not_eq_false]
    exact not_and_or.mp word
  have whole : ParsesBack pg column (.text s) (some s) ↔ s ≠ nullToken := by
    by_cases token : s = nullToken
    · rw [token, parsesBack_token]
      simp
    · rw [parsesBack_some token]
      exact ⟨fun _ => token, fun _ => pg.reads_text holds⟩
  by_cases date : wire.unicode.toLowercase column.dataType = "date".str
  · rw [if_pos date]
    cases cut : datePrefix s with
    | none =>
      rw [Option.getD_none, whole]
      simp [blank, notWord]
    | some day =>
      by_cases same : day = s
      · rw [Option.getD_some, same, whole]
        simp [blank, notWord]
      · have other : ¬ParsesBack pg column (.text s) (some day) := by
          by_cases token : day = nullToken
          · rw [token, parsesBack_token]
            simp
          · rw [parsesBack_some token]
            exact fun reads => same ((pg.reads_date holds date).2 day cut reads)
        rw [Option.getD_some]
        simp [other, date, same]
  · rw [if_neg date, whole]
    simp [blank, notWord, date]

/-- A document stands in a column of a JSON type, however the type is spelled. -/
theorem json_type {doc : PgJson} (holds : pg.Holds column (.json doc)) :
    isJson (wire.unicode.toLowercase column.dataType) = true := by
  obtain ⟨typed, fits⟩ := pg.holds_typed holds
  have kind : column.kind = .json := by simpa [SqlValue.fits] using fits
  simpa [Column.typed, kind] using typed

/-- The cell of a value that is printed. -/
theorem printed_cell (json : isJson (wire.unicode.toLowercase column.dataType) = true)
    (value_ne_null : value ≠ .null) (value_ne_string : ∀ s, value ≠ .string s) :
    cellFor wire.toCoercion value column.dataType = some (wire.showJson value) := by
  cases value with
  | null => exact absurd rfl value_ne_null
  | string s => exact absurd rfl (value_ne_string s)
  | bool | number | array | object => simp [cellFor, json]

/-- A document is sent as the text of what was read, and comes back exactly if Postgres reads its
value again. -/
theorem json_parsesBack {doc : PgJson} (holds : pg.Holds column (.json doc))
    (read : wire.readJson doc = some value) :
    ParsesBack pg column (.json doc) (cellFor wire.toCoercion value column.dataType) ↔
      PlainValue pg column (.json doc) := by
  have json := json_type holds
  have printed (value_ne_null : value ≠ .null) (value_ne_string : ∀ s, value ≠ .string s)
      (doc_ne_string : ∀ s, doc ≠ .string s) :
      ParsesBack pg column (.json doc) (cellFor wire.toCoercion value column.dataType) ↔
        wire.Survives pg.sameNumber doc := by
    rw [printed_cell json value_ne_null value_ne_string, parsesBack_some (wire.showJson_ne value),
      pg.reads_json holds read doc_ne_string, prints_iff pg.sameNumber read]
  cases doc with
  | null =>
    rw [Wire.readJson] at read
    obtain rfl := Option.some.inj read
    rw [cellFor, parsesBack_null]
    simp [PlainValue]
  | string s =>
    obtain rfl := readJson_string read
    have cell : cellFor wire.toCoercion (.string s) column.dataType = some s := by
      simp [cellFor, json]
    rw [cell]
    by_cases token : s = nullToken
    · rw [token, parsesBack_token]
      simp [PlainValue]
    · rw [parsesBack_some token]
      exact ⟨pg.reads_string holds, False.elim⟩
  | bool b =>
    rw [Wire.readJson] at read
    obtain rfl := Option.some.inj read
    exact printed (by simp) (by simp) (by simp)
  | number text =>
    rw [Wire.readJson] at read
    obtain ⟨n, number, rfl⟩ := Option.map_eq_some_iff.mp read
    exact printed (by simp) (by simp) (by simp)
  | array items =>
    rw [Wire.readJson] at read
    obtain ⟨values, all, rfl⟩ := Option.map_eq_some_iff.mp read
    exact printed (by simp) (by simp) (by simp)
  | object members =>
    rw [Wire.readJson] at read
    obtain ⟨values, all, rfl⟩ := Option.map_eq_some_iff.mp read
    exact printed (by simp) (by simp) (by simp)

/-- An array or a record is a document on the wire, and never comes back as what it was. -/
theorem nested_parsesBack {doc : PgJson} (holds : pg.Holds column (.nested doc))
    (read : wire.readJson doc = some value) :
    ¬ParsesBack pg column (.nested doc) (cellFor wire.toCoercion value column.dataType) := by
  obtain ⟨typed, fits⟩ := pg.holds_typed holds
  have printed (cell : cellFor wire.toCoercion value column.dataType =
      some (wire.showJson value)) :
      ¬ParsesBack pg column (.nested doc) (cellFor wire.toCoercion value column.dataType) := by
    rw [cell, parsesBack_some (wire.showJson_ne value)]
    exact pg.reads_nested holds
  cases doc with
  | null | bool | number | string => simp [SqlValue.fits] at fits
  | array items =>
    rw [Wire.readJson] at read
    obtain ⟨values, all, rfl⟩ := Option.map_eq_some_iff.mp read
    exact printed (by simp [cellFor])
  | object members =>
    rw [Wire.readJson] at read
    obtain ⟨values, all, rfl⟩ := Option.map_eq_some_iff.mp read
    exact printed (by simp [cellFor])

/-- The cell of a value parses back exactly if the value is plain. -/
theorem parsesBack_iff (holds : pg.Holds column v) (read : wire.readJson v.toJsonb = some value) :
    ParsesBack pg column v (cellFor wire.toCoercion value column.dataType) ↔
      PlainValue pg column v := by
  cases v with
  | null =>
    rw [SqlValue.toJsonb, Wire.readJson] at read
    obtain rfl := Option.some.inj read
    rw [cellFor, parsesBack_null]
    simp [PlainValue]
  | bool b =>
    rw [SqlValue.toJsonb, Wire.readJson] at read
    obtain rfl := Option.some.inj read
    exact iff_of_true (bool_parsesBack holds) trivial
  | number digits =>
    rw [SqlValue.toJsonb, Wire.readJson] at read
    obtain ⟨n, number, rfl⟩ := Option.map_eq_some_iff.mp read
    rw [number_parsesBack holds]
    simp [PlainValue, number]
  | special name =>
    obtain rfl := readJson_string read
    exact special_parsesBack holds
  | json doc => exact json_parsesBack holds read
  | nested doc => exact iff_of_false (nested_parsesBack holds read) id
  | text s =>
    obtain rfl := readJson_string read
    exact text_parsesBack holds

/-! ## Rows that survive -/

mutual

/-- What survives can be read, by induction on the document. -/
theorem readable_of_survives (sameNumber : Str → Str → Prop) :
    ∀ {doc : PgJson}, wire.Survives sameNumber doc → (wire.readJson doc).isSome = true
  | .null, _ => rfl
  | .bool _, _ => rfl
  | .string _, _ => rfl
  | .number text, survives => by
    rw [Wire.Survives] at survives
    obtain ⟨n, number, -⟩ := survives
    simp [Wire.readJson, number]
  | .array items, survives => by
    rw [Wire.Survives] at survives
    simpa [Wire.readJson] using readableItems_of_survive sameNumber survives
  | .object members, survives => by
    rw [Wire.Survives] at survives
    simpa [Wire.readJson] using readableMembers_of_survive sameNumber survives

/-- The same for the items of an array. -/
theorem readableItems_of_survive (sameNumber : Str → Str → Prop) :
    ∀ {items : List PgJson}, wire.SurviveItems sameNumber items →
      (wire.readItems items).isSome = true
  | [], _ => rfl
  | item :: rest, survive => by
    rw [Wire.SurviveItems] at survive
    obtain ⟨value, first⟩ :=
      Option.isSome_iff_exists.mp (readable_of_survives sameNumber survive.1)
    obtain ⟨values, more⟩ :=
      Option.isSome_iff_exists.mp (readableItems_of_survive sameNumber survive.2)
    simp [Wire.readItems, first, more]

/-- The same for the members of an object. -/
theorem readableMembers_of_survive (sameNumber : Str → Str → Prop) :
    ∀ {members : List (Str × PgJson)}, wire.SurviveMembers sameNumber members →
      (wire.readMembers members).isSome = true
  | [], _ => rfl
  | (key, item) :: rest, survive => by
    rw [Wire.SurviveMembers] at survive
    obtain ⟨value, first⟩ :=
      Option.isSome_iff_exists.mp (readable_of_survives sameNumber survive.1)
    obtain ⟨values, more⟩ :=
      Option.isSome_iff_exists.mp (readableMembers_of_survive sameNumber survive.2)
    simp [Wire.readMembers, first, more]

end

/-- What is plain can be read. -/
theorem readable_of_plain (plain : PlainValue pg column v) :
    (wire.readJson v.toJsonb).isSome = true := by
  cases v with
  | null | bool | special | text => rfl
  | number digits =>
    obtain ⟨n, number, -⟩ := plain
    simp [SqlValue.toJsonb, Wire.readJson, number]
  | nested doc => exact plain.elim
  | json doc =>
    cases doc with
    | null | string => exact plain.elim
    | bool => rfl
    | number | array | object =>
      exact readable_of_survives pg.sameNumber plain

/-- The members that are read are those of the object, under their names and in their order. -/
theorem readMembers_some {members : List (Str × PgJson)} {values : List (Str × Json)}
    (read : wire.readMembers members = some values) :
    values.map Prod.fst = members.map Prod.fst ∧
      ∀ member ∈ members, ∃ value, wire.readJson member.2 = some value ∧
        (member.1, value) ∈ values := by
  induction members generalizing values with
  | nil =>
    obtain rfl := Option.some.inj read
    simp
  | cons member rest inductionHypothesis =>
    rw [Wire.readMembers] at read
    split at read
    · rename_i first others one more
      obtain rfl := Option.some.inj read
      obtain ⟨keys, found⟩ := inductionHypothesis more
      constructor
      · simp [keys]
      · intro other listed
        rcases List.mem_cons.mp listed with rfl | later
        · exact ⟨first, one, List.mem_cons_self⟩
        · obtain ⟨value, one, among⟩ := found other later
          exact ⟨value, one, List.mem_cons_of_mem _ among⟩
    · cases read

/-- An object is read if each of its members is. -/
theorem readMembers_isSome {members : List (Str × PgJson)}
    (readable : ∀ member ∈ members, (wire.readJson member.2).isSome = true) :
    (wire.readMembers members).isSome = true := by
  induction members with
  | nil => rfl
  | cons member rest inductionHypothesis =>
    obtain ⟨value, one⟩ := Option.isSome_iff_exists.mp (readable member List.mem_cons_self)
    obtain ⟨values, more⟩ := Option.isSome_iff_exists.mp
      (inductionHypothesis fun other later => readable other (List.mem_cons_of_mem _ later))
    simp [Wire.readMembers, one, more]

variable {row : StoredRow pg} {record : Json}

/-- What is sent of a row: the keys are the columns that are not stamped, each with its value. -/
theorem pushed_some (sent : row.pushed = some record) :
    (∀ name, name ∈ keysOf record ↔
      ∃ entry ∈ row.entries, entry.1.stamped = false ∧ entry.1.name = name) ∧
    (∀ entry ∈ row.entries, ∃ value, wire.readJson entry.2.toJsonb = some value ∧
      (entry.1.stamped = false → field record entry.1.name = some value)) ∧
    record.asObject?.isSome = true := by
  obtain ⟨whole, shown, rfl⟩ := Option.map_eq_some_iff.mp sent
  have read := (read_eq_some.mp shown).2
  rw [StoredRow.document, Wire.readJson] at read
  obtain ⟨values, all, rfl⟩ := Option.map_eq_some_iff.mp read
  obtain ⟨keys, found⟩ := readMembers_some all
  rw [List.map_map] at keys
  refine ⟨fun name => ?_, fun entry listed => ?_, rfl⟩
  · have named : name ∈ values.map Prod.fst ↔ ∃ entry ∈ row.entries, entry.1.name = name := by
      rw [keys]
      simp [Function.comp_def]
    have kept : name ∈ keysOf (stripServerSideCols (.object values)) ↔
        name ∈ values.map Prod.fst ∧ serverStampedCols.contains name = false := by
      simp only [keysOf, stripServerSideCols, Json.asObject?, Option.getD_some, List.mem_map,
        List.mem_filter, Bool.not_eq_true']
      constructor
      · rintro ⟨member, ⟨among, free⟩, rfl⟩
        exact ⟨⟨member, among, rfl⟩, free⟩
      · rintro ⟨⟨member, among, rfl⟩, free⟩
        exact ⟨member, ⟨among, free⟩, rfl⟩
    rw [kept, named]
    constructor
    · rintro ⟨⟨entry, listed, rfl⟩, free⟩
      exact ⟨entry, listed, free, rfl⟩
    · rintro ⟨entry, listed, free, rfl⟩
      exact ⟨⟨entry, listed, rfl⟩, free⟩
  · obtain ⟨value, one, among⟩ := found (entry.1.name, entry.2.toJsonb)
      (List.mem_map_of_mem listed)
    refine ⟨value, one, fun free => ?_⟩
    have names : (values.map Prod.fst).Nodup := by
      rw [keys]
      exact row.names
    have kept : (entry.1.name, value) ∈
        values.filter (fun member => !serverStampedCols.contains member.1) := by
      apply List.mem_filter.mpr
      refine ⟨among, ?_⟩
      rw [Column.stamped] at free
      simp only [free, Bool.not_false]
    exact Assoc.lookup_of_mem ((List.filter_sublist.map Prod.fst).nodup names) kept

/-- A row is pushed if its document is not nested too deep and each cell is read. -/
theorem pushed_isSome (shallow : row.document.depth < recursionLimit)
    (readable : ∀ entry ∈ row.entries, (wire.readJson entry.2.toJsonb).isSome = true) :
    row.pushed.isSome = true := by
  have members : (wire.readMembers
      (row.entries.map (fun entry => (entry.1.name, entry.2.toJsonb)))).isSome = true := by
    apply readMembers_isSome
    intro member listed
    obtain ⟨entry, among, rfl⟩ := List.mem_map.mp listed
    exact readable entry among
  have read : (wire.readJson row.document).isSome = true := by
    simpa [StoredRow.document, Wire.readJson] using members
  rw [StoredRow.pushed, Wire.read, if_pos shallow, Option.isSome_map]
  exact read

/-- What is sent was not nested too deep. -/
theorem shallow_of_pushed (sent : row.pushed = some record) :
    row.document.depth < recursionLimit := by
  obtain ⟨whole, shown, -⟩ := Option.map_eq_some_iff.mp sent
  exact (read_eq_some.mp shown).1

/-- The columns that say where a row is from, as every `COPY` names them. -/
def lineageCols (table : TableMeta) : List Str :=
  ["source".str, "source_endpoint".str, "source_run_id".str] ++
    if table.columns.any (fun column => column.name == "ingest_ts".str) then ["ingest_ts".str]
    else []

/-- A row that replication preserves. -/
structure Plain (row : StoredRow pg) : Prop where
  /-- The row is read as one document. -/
  shallow : row.document.depth < recursionLimit
  /-- Even what is not sent has to be read. -/
  readable : ∀ entry ∈ row.entries, entry.1.stamped = true →
    (wire.readJson entry.2.toJsonb).isSome = true
  /-- The table has the columns that every `COPY` writes. -/
  lineage : copies pg row.columns (lineageCols row.tableMeta) = true
  /-- No other column is generated, each is found without quotes, and its value is plain. -/
  columns : ∀ entry ∈ row.entries, entry.1.stamped = false →
    entry.1.generation = .none ∧ pg.unquoted entry.1.name = true ∧ PlainValue pg entry.1 entry.2

/-- A staged column can be written to. -/
theorem writable_of_staged {column : Column} (staged : column.staged = true) :
    column.writable = true := by
  rw [Column.staged, decide_eq_true_eq] at staged
  simp [Column.writable, staged]

/-- A list of columns is copied if both of its parts are. -/
theorem copies_append {columns : List Column} {left right : List Str} :
    copies pg columns (left ++ right) = true ↔
      copies pg columns left = true ∧ copies pg columns right = true := by
  rw [copies, List.all_append, Bool.and_eq_true]
  rfl

/-- The columns of a `COPY` are those of the payload and those of the lineage. -/
theorem fullCols_eq (table : TableMeta) (record : Json) :
    fullCols table record = payloadCols table record ++ lineageCols table := by
  rw [fullCols, lineageCols, List.append_assoc]

/-- The columns of a table have different names. -/
theorem entry_eq {entry other : Column × SqlValue} (listed : entry ∈ row.entries)
    (among : other ∈ row.entries) (same : entry.1.name = other.1.name) : entry = other :=
  List.inj_on_of_nodup_map row.names listed among same

/-- The validator knows the columns that can be written. -/
theorem mem_tableMeta {name : Str} :
    name ∈ row.tableMeta.columns.map ColumnInfo.name ↔
      ∃ entry ∈ row.entries, entry.1.writable = true ∧ entry.1.name = name := by
  simp only [StoredRow.tableMeta, StoredRow.columns, List.map_map, List.mem_map, List.mem_filter]
  constructor
  · rintro ⟨column, ⟨⟨entry, listed, rfl⟩, writable⟩, rfl⟩
    exact ⟨entry, listed, writable, rfl⟩
  · rintro ⟨entry, listed, writable, rfl⟩
    exact ⟨entry.1, ⟨⟨entry, listed, rfl⟩, writable⟩, rfl⟩

/-- The payload has the written columns that the row is pushed with and that are not stamped. -/
theorem mem_payloadCols (sent : row.pushed = some record) {name : Str} :
    name ∈ payloadCols row.tableMeta record ↔
      ∃ entry ∈ row.entries, entry.1.stamped = false ∧ entry.1.writable = true ∧
        entry.1.name = name := by
  simp only [payloadCols, List.mem_filter, mem_tableMeta, Bool.and_eq_true,
    List.contains_iff_mem, (pushed_some sent).1, Bool.not_eq_true']
  constructor
  · rintro ⟨⟨entry, listed, writable, rfl⟩, ⟨other, among, free, same⟩, -⟩
    obtain rfl := entry_eq among listed same
    exact ⟨other, among, free, writable, rfl⟩
  · rintro ⟨entry, listed, free, writable, rfl⟩
    exact ⟨⟨entry, listed, writable, rfl⟩, ⟨entry, listed, free, rfl⟩, free⟩

/-- A value that is not null satisfies every column. -/
theorem columnError_present {members : JsonMap} {info : ColumnInfo}
    (got : JsonMap.get members info.name = some value) (present : value ≠ .null) :
    columnError members info = none := by
  rw [columnError, got]
  cases value with
  | null => exact absurd rfl present
  | bool | number | string | array | object => simp

/-- Of the plain values only `NULL` is sent as `null`. -/
theorem null_of_plain (plain : PlainValue pg column v)
    (read : wire.readJson v.toJsonb = some .null) : v = .null := by
  cases v with
  | null => rfl
  | nested doc => exact plain.elim
  | json doc =>
    cases doc with
    | null => exact plain.elim
    | bool | number | string | array | object => simp [SqlValue.toJsonb, Wire.readJson] at read
  | bool | number | special | text => simp [SqlValue.toJsonb, Wire.readJson] at read

/-- A row is accepted if its columns can be written and its JSON values are not `null`. -/
theorem validateOne_eq_none (sent : row.pushed = some record)
    (writable : ∀ entry ∈ row.entries, entry.1.stamped = false → entry.1.writable = true)
    (plain : ∀ entry ∈ row.entries, entry.1.stamped = false → PlainValue pg entry.1 entry.2) :
    validateOne row.tableMeta record = none := by
  obtain ⟨keys, values, object⟩ := pushed_some sent
  obtain ⟨members, isObject⟩ := Option.isSome_iff_exists.mp object
  have known : members.findSome? (fun entry => keyError row.tableMeta entry.1) = none := by
    rw [List.findSome?_eq_none_iff]
    intro member listed
    have key : member.1 ∈ keysOf record := by
      rw [keysOf, isObject]
      exact List.mem_map_of_mem listed
    obtain ⟨entry, among, free, name⟩ := (keys member.1).mp key
    have column : member.1 ∈ row.tableMeta.columns.map ColumnInfo.name :=
      mem_tableMeta.mpr ⟨entry, among, writable entry among free, name⟩
    have found : row.tableMeta.columns.any (fun column => column.name == member.1) = true := by
      simpa using column
    rw [Column.stamped, name] at free
    simp only [keyError, free, found, Bool.false_eq_true, Bool.not_true, if_false]
  have complete : row.tableMeta.columns.findSome? (columnError members) = none := by
    rw [List.findSome?_eq_none_iff]
    intro info listed
    simp only [StoredRow.tableMeta, StoredRow.columns, List.mem_map, List.mem_filter] at listed
    obtain ⟨column, ⟨⟨entry, among, rfl⟩, -⟩, rfl⟩ := listed
    by_cases required : entry.1.info.required = true
    · simp only [ColumnInfo.required, Column.info, Bool.and_eq_true, Bool.not_eq_true'] at required
      obtain ⟨⟨⟨free, -⟩, notNull⟩, -⟩ := required
      obtain ⟨value, read, found⟩ := values entry among
      have got : JsonMap.get members entry.1.name = some value := by
        simpa [field, isObject] using found free
      have got : JsonMap.get members entry.1.info.name = some value := got
      apply columnError_present got
      rintro rfl
      have null := null_of_plain (plain entry among free) read
      have holds := row.holds entry among
      rw [null] at holds
      rw [pg.holds_null holds] at notNull
      cases notNull
    · rw [columnError, if_neg required]
  rw [validateOne, isObject]
  dsimp only
  rw [known]
  exact complete

/-- What replicates can only have columns that are written. -/
theorem writable_of_accepted (sent : row.pushed = some record)
    (accepted : validateOne row.tableMeta record = none) {entry : Column × SqlValue}
    (listed : entry ∈ row.entries) (free : entry.1.stamped = false) :
    entry.1.writable = true := by
  obtain ⟨keys, -, object⟩ := pushed_some sent
  obtain ⟨members, isObject⟩ := Option.isSome_iff_exists.mp object
  have key : entry.1.name ∈ keysOf record := (keys entry.1.name).mpr ⟨entry, listed, free, rfl⟩
  rw [keysOf, isObject] at key
  obtain ⟨member, among, name⟩ := List.mem_map.mp key
  rw [validateOne, isObject] at accepted
  dsimp only at accepted
  cases unknown : members.findSome? (fun entry => keyError row.tableMeta entry.1) with
  | some error => simp [unknown] at accepted
  | none =>
    have known := List.findSome?_eq_none_iff.mp unknown member among
    have found : member.1 ∈ row.tableMeta.columns.map ColumnInfo.name := by
      by_contra missing
      rw [keyError] at known
      split at known
      · cases known
      · rw [if_pos (by simpa using missing)] at known
        cases known
    obtain ⟨other, among, writable, same⟩ := mem_tableMeta.mp found
    obtain rfl := entry_eq among listed (same.trans name)
    exact writable

/-- Each copied column is one of the staging table, under a name that needs no quotes. -/
theorem staged_of_copies {columns : List Column} {names : List Str} {name : Str}
    (all : copies pg columns names = true) (listed : name ∈ names) :
    pg.unquoted name = true ∧ ∃ column ∈ columns, column.name = name ∧ column.staged = true := by
  have one := List.all_eq_true.mp all name listed
  simpa using one

/-- What replicates is plain: each stage is inverted in turn. -/
theorem plain_of_replicates (replicates : Replicates row) : Plain row := by
  obtain ⟨record, sent, accepted, copied, cells⟩ := replicates
  obtain ⟨keys, values, object⟩ := pushed_some sent
  rw [fullCols_eq, copies_append] at copied
  refine ⟨shallow_of_pushed sent, fun entry listed _ => ?_, copied.2, fun entry listed free => ?_⟩
  · obtain ⟨value, read, -⟩ := values entry listed
    rw [read, Option.isSome_some]
  · obtain ⟨payload, parses⟩ := cells entry listed free
    obtain ⟨value, read, found⟩ := values entry listed
    obtain ⟨unquoted, column, listedColumn, same, staged⟩ := staged_of_copies copied.1 payload
    obtain ⟨other, among, rfl⟩ := List.mem_map.mp listedColumn
    obtain rfl := entry_eq among listed same
    rw [cellOf, found free, Option.getD_some, parsesBack_iff (row.holds other listed) read]
      at parses
    rw [Column.staged, decide_eq_true_eq] at staged
    exact ⟨staged, unquoted, parses⟩

/-- What is plain replicates: each stage is passed in turn. -/
theorem replicates_of_plain (plain : Plain row) : Replicates row := by
  obtain ⟨shallow, readable, lineage, columns⟩ := plain
  have all : ∀ entry ∈ row.entries, (wire.readJson entry.2.toJsonb).isSome = true := by
    intro entry listed
    cases stamped : entry.1.stamped with
    | true => exact readable entry listed stamped
    | false => exact readable_of_plain (columns entry listed stamped).2.2
  obtain ⟨record, sent⟩ := Option.isSome_iff_exists.mp (pushed_isSome shallow all)
  obtain ⟨keys, values, object⟩ := pushed_some sent
  have staged : ∀ entry ∈ row.entries, entry.1.stamped = false → entry.1.staged = true := by
    intro entry listed free
    rw [Column.staged, decide_eq_true_eq]
    exact (columns entry listed free).1
  have writable : ∀ entry ∈ row.entries, entry.1.stamped = false → entry.1.writable = true :=
    fun entry listed free => writable_of_staged (staged entry listed free)
  have payload : copies pg row.columns (payloadCols row.tableMeta record) = true := by
    rw [copies, List.all_eq_true]
    intro name listed
    obtain ⟨entry, among, free, -, rfl⟩ := (mem_payloadCols sent).mp listed
    rw [Bool.and_eq_true, List.any_eq_true]
    refine ⟨(columns entry among free).2.1, entry.1, List.mem_map_of_mem among, ?_⟩
    simp [staged entry among free]
  have accepted : validateOne row.tableMeta record = none :=
    validateOne_eq_none sent writable fun entry listed free => (columns entry listed free).2.2
  refine ⟨record, sent, accepted, ?_, fun entry listed free => ?_⟩
  · rw [fullCols_eq, copies_append]
    exact ⟨payload, lineage⟩
  · obtain ⟨value, read, found⟩ := values entry listed
    constructor
    · exact (mem_payloadCols sent).mpr ⟨entry, listed, free, writable entry listed free, rfl⟩
    · rw [cellOf, found free, Option.getD_some, parsesBack_iff (row.holds entry listed) read]
      exact (columns entry listed free).2.2

/-- Replication preserves exactly the plain rows: the row is accepted and every cell of it
reads as the value it came from, unless a column is generated or hidden behind quotes, a
column that every write names is missing, or a value is one the stages do not carry. -/
theorem replicates_iff {wire : Wire} {pg : Postgres wire} (row : StoredRow pg) :
    Replicates row ↔ Plain row :=
  ⟨plain_of_replicates, replicates_of_plain⟩

/-! ## A blank text -/

/-- No number is written as the token for null. -/
theorem showInt_ne (i : Int) : Text.showInt i ≠ nullToken := by
  cases i with
  | ofNat n =>
    intro same
    have member : '_' ∈ Text.showNat n := by
      rw [Text.showInt] at same
      rw [same]
      decide
    exact absurd (Text.isDigit_of_mem_showNat member) (by decide)
  | negSucc n =>
    intro same
    have head : '-' = '_' := (List.cons.inj same).1
    exact absurd head (by decide)

/-- A coercion for texts: it reads integers and nothing else as numbers. -/
def textWire : Wire where
  unicode := Unicode.ascii
  showNumber
    | .int i => Text.showInt i
    | .float _ => "0.0".str
  showJson
    | .null => "null".str
    | .bool b => Text.showBool b
    | .number (.int i) => Text.showInt i
    | .number (.float _) => "0.0".str
    | .string s => '"' :: Text.fromUtf8Lossy (Crates.Plain.render (.string s)).tail
    | .array items => '[' :: Text.fromUtf8Lossy (Crates.Plain.render (.array items)).tail
    | .object members => '\x7b' :: Text.fromUtf8Lossy (Crates.Plain.render (.object members)).tail
  epochToIso _ := none
  readNumber text := (Text.parseI64 text).map .int
  showNumber_ne
    | .int i => showInt_ne i
    | .float _ => (by decide : "0.0".str ≠ nullToken)
  showJson_ne
    | .null => by decide
    | .bool b => showBool_ne b
    | .number (.int i) => showInt_ne i
    | .number (.float _) => (by decide : "0.0".str ≠ nullToken)
    | .string s => fun same => absurd (List.cons.inj same).1 (by decide)
    | .array items => fun same => absurd (List.cons.inj same).1 (by decide)
    | .object members => fun same => absurd (List.cons.inj same).1 (by decide)

/-- Postgres with columns of type `text` only. -/
def textPostgres : Postgres textWire where
  Holds column value :=
    column.dataType = "text".str ∧ column.kind = .other ∧
      match value with
      | .null => column.isNullable = true
      | .text _ => True
      | _ => False
  Reads _ s value := value = .text s
  sameNumber := Eq
  unquoted name := name.all (fun c => Text.isAsciiLower c || c == '_')
  holds_typed := by
    rintro ⟨name, dataType, kind, isNullable, hasDefault, generation⟩ value ⟨rfl, rfl, shape⟩
    have typed : isPlainType (textWire.unicode.toLowercase "text".str) = true := by decide
    refine ⟨typed, ?_⟩
    cases value with
    | null | text => rfl
    | bool | number | special | json | nested => exact shape.elim
  holds_null := fun holds => holds.2.2
  reads_bool := fun holds => holds.2.2.elim
  reads_special := fun holds => holds.2.2.elim
  reads_text := fun _ => rfl
  reads_date := by
    rintro ⟨name, dataType, kind, isNullable, hasDefault, generation⟩ s ⟨rfl, rfl, -⟩ date
    have other : textWire.unicode.toLowercase "text".str ≠ "date".str := by decide
    exact absurd date other
  reads_json := fun holds => holds.2.2.elim
  reads_string := fun holds => holds.2.2.elim
  reads_nested := fun holds => holds.2.2.elim

/-- A column of text without a default. -/
def textColumn (name : Str) (isNullable : Bool) : Column :=
  ⟨name, "text".str, .other, isNullable, false, .none⟩

/-- A row of a ticker and a note, with where it is from. -/
def noted (note : Str) : StoredRow textPostgres where
  entries := [
    (textColumn "ticker".str false, .text "ACME".str),
    (textColumn "note".str true, .text note),
    (textColumn "source".str false, .text "vendor".str),
    (textColumn "source_endpoint".str true, .null),
    (textColumn "source_run_id".str true, .null)]
  names := by
    have different : ["ticker".str, "note".str, "source".str, "source_endpoint".str,
        "source_run_id".str].Nodup := by
      decide
    exact different
  holds := by
    intro entry listed
    simp only [List.mem_cons, List.not_mem_nil, or_false] at listed
    rcases listed with rfl | rfl | rfl | rfl | rfl <;> exact ⟨rfl, rfl, by trivial⟩

/-- An empty note arrives as no note at all. -/
theorem empty_text_lost : ¬Replicates (noted []) := by
  intro replicates
  have plain := (plain_of_replicates replicates).columns (textColumn "note".str true, .text [])
    (by simp [noted]) (by decide)
  exact plain.2.2.1 rfl

end LumidPlatform.Sync.RoundTrip
