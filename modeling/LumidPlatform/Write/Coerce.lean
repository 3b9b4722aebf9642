import LumidPlatform.Write.Validation

/-!
# Cells of a staged copy

A value is rendered as the text of a CSV cell, by its JSON form and the type of its column.
No cell stands for `NULL`, which is written as a token of its own. Partners send their
numbers, dates and missing values in many spellings, and the coercion is tolerant of them.
-/

namespace LumidPlatform.Write

/-- What the coercion takes from other crates. -/
structure Coercion where
  unicode : Unicode
  /-- `Number::to_string`. -/
  showNumber : JsonNumber → Str
  /-- `Value::to_string`. -/
  showJson : Json → Str
  /-- `epoch_to_iso` on `as_f64`. -/
  epochToIso : JsonNumber → Option Str

def nullToken : Str := "__FINAI_NULL_b8e3__".str

def badFloatTokens : List Str :=
  ["".str, "n/a".str, "na".str, "null".str, "none".str, "nan".str, "-".str, "--".str, "inf".str,
    "-inf".str]

/-- What means `NULL` in a column that is not text. -/
def nullWords : List Str := ["none".str, "null".str, "nan".str, "n/a".str]

def isJson (t : Str) : Bool := t = "jsonb".str || t = "json".str

def isBoolean (t : Str) : Bool := t = "boolean".str || t = "bool".str

def isNumeric (t : Str) : Bool :=
  ["numeric".str, "decimal".str, "double precision".str, "real".str, "float".str, "float8".str,
    "float4".str].contains t

def isInteger (t : Str) : Bool :=
  ["int".str, "integer".str, "int4".str, "smallint".str, "int2".str, "bigint".str,
    "int8".str].contains t

/-- `is_texty`, on a type in lower case. -/
def isTexty (t : Str) : Bool :=
  Text.startsWith t "text".str || Text.startsWith t "varchar".str || Text.startsWith t "char".str ||
    t = "character varying".str || t = "character".str || t = "tsvector".str || isJson t ||
    t = "uuid".str

/-- `parse_numeric_str`. -/
def parseNumericStr (unicode : Unicode) (s : Str) : Option Str :=
  let s := (Text.trim s).filter (· ≠ ',')
  if s.isEmpty || badFloatTokens.contains (unicode.toLowercase s) then none
  else
    let cleaned := Text.trimEndMatches '%' (s.dropWhile (· == '$'))
    if (F64.parse cleaned).isSome then some cleaned else none

/-- A number that was parsed is not the token. -/
theorem parseNumericStr_ne (unicode : Unicode) (s : Str) :
    parseNumericStr unicode s ≠ some nullToken := by
  intro same
  rw [parseNumericStr] at same
  dsimp only at same
  split_ifs at same with bad number
  rw [Option.some.inj same] at number
  exact absurd number (by decide +kernel)

/-- `date_prefix`. -/
def datePrefix (s : Str) : Option Str :=
  match s with
  | y1 :: y2 :: y3 :: y4 :: dash1 :: m1 :: m2 :: dash2 :: d1 :: d2 :: _ =>
    if [y1, y2, y3, y4, m1, m2, d1, d2].all Text.isAsciiDigit && dash1 == '-' && dash2 == '-' then
      some [y1, y2, y3, y4, dash1, m1, m2, dash2, d1, d2]
    else none
  | _ => none

/-- A string as a cell of a column that is not JSON. -/
def stringCell (unicode : Unicode) (s t : Str) : Option Str :=
  let trimmed := Text.trim s
  if trimmed.isEmpty then none
  else if !isTexty t && nullWords.contains (unicode.toLowercase trimmed) then none
  else if isNumeric t || isInteger t then parseNumericStr unicode trimmed
  else if isBoolean t then
    let low := unicode.toLowercase trimmed
    if ["true".str, "t".str, "1".str, "yes".str, "y".str].contains low then some "true".str
    else if ["false".str, "f".str, "0".str, "no".str, "n".str].contains low then some "false".str
    else none
  else if t = "date".str then some ((datePrefix trimmed).getD trimmed)
  else some s

/-- A number as a cell of a column that is not JSON. -/
def numberCell (coercion : Coercion) (n : JsonNumber) (t : Str) : Option Str :=
  if isNumeric t || isInteger t then some (coercion.showNumber n)
  else if isBoolean t then
    if n = .int 1 then some "true".str
    else if n = .int 0 then some "false".str
    else none
  else if Text.startsWith t "timestamp".str then coercion.epochToIso n
  else some (coercion.showNumber n)

/-- `cell_for`. -/
def cellFor (coercion : Coercion) (value : Json) (dataType : Str) : Option Str :=
  let t := coercion.unicode.toLowercase dataType
  match value with
  | .null => none
  | value =>
    if isJson t then
      match value with
      | .string s => some s
      | other => some (coercion.showJson other)
    else
      match value with
      | .bool b =>
        if isBoolean t then some (Text.showBool b)
        else if isNumeric t then some (if b then "1".str else "0".str)
        else some (Text.showBool b)
      | .number n => numberCell coercion n t
      | .string s => stringCell coercion.unicode s t
      | other => some (coercion.showJson other)

/-- The field of a cell, as `COPY` reads it: the token is `NULL` wherever it came from, since
the writer has no reason to quote it. -/
def copied (cell : Option Str) : Option Str := cell.filter (· ≠ nullToken)

end LumidPlatform.Write
