import LumidPlatform.Lib.CopyCsv
import LumidPlatform.Utf8
import LumidPlatform.Write.Engine

/-!
# The bytes of the copy

The fields of all records are written as one text, which `COPY` reads. A missing cell is written
as a token, which is none of the texts that the writer quotes; so it is `NULL` wherever it comes
from. All other texts come back as they were, whatever is in them.
-/

namespace LumidPlatform.Write.Engine

/-! ## Writing and reading -/

/-- `build_csv`, with the text that its writer makes of the fields. -/
def csvBytes (coercion : Coercion) (dtype : Str → Str) (call : Call) (ingestTs : Option Str) :
    Bytes :=
  Text.utf8 (CopyCsv.write (buildCsv coercion dtype call ingestTs))

/-- `COPY`, with the token for `NULL`. -/
def copyIn (bytes : Bytes) : Option (List (List (Option Str))) :=
  (Text.fromUtf8 bytes).bind (CopyCsv.read nullToken)

/-- The cells of a record, and the fields of its provenance. -/
def cellsOf (coercion : Coercion) (dtype : Str → Str) (call : Call) (ingestTs : Option Str)
    (record : Json) : List (Option Str) :=
  call.cols.map (fun name => cellFor coercion (valueAt record name) (dtype name)) ++
    [some call.source, some call.sourceEndpoint, some call.sourceRunId] ++ ingestTs.toList.map some

/-- The coercion, with what is printed: no number, no JSON text and no time is the token. -/
structure Printing extends Coercion where
  showNumber_ne : ∀ n, showNumber n ≠ nullToken
  showJson_ne : ∀ value, showJson value ≠ nullToken
  epochToIso_ne : ∀ n, epochToIso n ≠ some nullToken

/-- A string that a column of some type copies as the token. -/
def stringToken (s t : Str) : Bool :=
  if isJson t then s = nullToken
  else if isNumeric t || isInteger t || isBoolean t then false
  else if t = "date".str then Text.trim s = nullToken
  else s = nullToken

/-- A value whose cell is the token, though it is not missing. -/
def spellsToken (unicode : Unicode) (value : Json) (dataType : Str) : Bool :=
  match value with
  | .string s => stringToken s (unicode.toLowercase dataType)
  | _ => false

/-- The token stands nowhere among the values and the provenance. -/
def tokenFree (coercion : Coercion) (dtype : Str → Str) (call : Call) (ingestTs : Option Str) :
    Prop :=
  ∀ record ∈ call.records,
    (∀ name ∈ call.cols, spellsToken coercion.unicode (valueAt record name) (dtype name) = false) ∧
      nullToken ∉ [call.source, call.sourceEndpoint, call.sourceRunId] ++ ingestTs.toList

/-! ## Cells that are the token -/

theorem trim_nullToken : Text.trim nullToken = nullToken := by decide

theorem datePrefix_ne (s : Str) : datePrefix s ≠ some nullToken := by
  intro same
  rw [datePrefix.eq_def] at same
  split at same
  · split_ifs at same with digits
    rename_i y1 _ _ _ _ _ _ _ _ _ _
    obtain rfl : y1 = '_' := (List.cons.inj (Option.some.inj same)).1
    simp only [List.all_cons, Bool.and_eq_true] at digits
    exact absurd digits.1.1.1 (by decide)
  · cases same

/-- The token is no word for a missing value. -/
theorem nullToken_word (unicode : Unicode) :
    nullWords.contains (unicode.toLowercase nullToken) = false := by
  have ascii : nullToken.all Text.isAscii = true := by decide
  have lower : unicode.toLowercase nullToken = Text.toAsciiLowercase nullToken :=
    unicode.toLowercaseFrom_ascii [] nullToken (List.all_eq_true.mp ascii)
  rw [lower]
  decide

/-- A string's cell is the token only in a column that copies it as it is, or trimmed. -/
theorem stringToken_of_cell {unicode : Unicode} {s t : Str} (json : isJson t = false)
    (same : stringCell unicode s t = some nullToken) : stringToken s t = true := by
  rw [stringCell] at same
  dsimp only at same
  split_ifs at same with blank missing number boolean yes no date
  · exact absurd same (parseNumericStr_ne unicode _)
  · exact absurd (Option.some.inj same) (by decide)
  · exact absurd (Option.some.inj same) (by decide)
  · have trimmed : Text.trim s = nullToken := by
      cases day : datePrefix (Text.trim s) with
      | none =>
        rw [day] at same
        exact Option.some.inj same
      | some prefix_ =>
        rw [day] at same
        exact absurd (day.trans same) (datePrefix_ne _)
    subst date
    simp only [stringToken, json, number, boolean, trimmed, Bool.or_self, Bool.false_eq_true,
      if_false, if_true, decide_true]
  · simpa [stringToken, json, number, boolean, date] using same

theorem stringCell_token {unicode : Unicode} {s t : Str} (json : isJson t = false)
    (token : stringToken s t = true) : stringCell unicode s t = some nullToken := by
  have word := nullToken_word unicode
  have whole : nullToken.isEmpty = false := by decide
  have day : datePrefix nullToken = none := by decide
  rw [stringToken, json, if_neg Bool.false_ne_true] at token
  cases number : isNumeric t || isInteger t with
  | true =>
    rw [number, Bool.true_or, if_pos rfl] at token
    cases token
  | false =>
    cases boolean : isBoolean t with
    | true =>
      rw [boolean, Bool.or_true, if_pos rfl] at token
      cases token
    | false =>
      rw [number, boolean, Bool.or_self, if_neg Bool.false_ne_true] at token
      split_ifs at token with date
      · subst date
        have trimmed : Text.trim s = nullToken := of_decide_eq_true token
        simp only [stringCell, trimmed, whole, word, number, boolean, day, Bool.and_false,
          Bool.false_eq_true, if_false, if_true, Option.getD_none]
      · obtain rfl : s = nullToken := of_decide_eq_true token
        simp only [stringCell, trim_nullToken, whole, word, number, boolean, date, Bool.and_false,
          Bool.false_eq_true, if_false]

/-- A cell is the token exactly if the value spells it. -/
theorem cellFor_token (printing : Printing) (value : Json) (dataType : Str) :
    cellFor printing.toCoercion value dataType = some nullToken ↔
      spellsToken printing.unicode value dataType = true := by
  have words (b : Bool) : Text.showBool b ≠ nullToken ∧
      (if b then "1".str else "0".str) ≠ nullToken := by
    cases b <;> decide
  cases json : isJson (printing.unicode.toLowercase dataType) with
  | true =>
    cases value with
    | null => simp [cellFor, spellsToken]
    | string s => simp [cellFor, spellsToken, stringToken, json]
    | bool _ => simp [cellFor, spellsToken, json, printing.showJson_ne]
    | number _ => simp [cellFor, spellsToken, json, printing.showJson_ne]
    | array _ => simp [cellFor, spellsToken, json, printing.showJson_ne]
    | object _ => simp [cellFor, spellsToken, json, printing.showJson_ne]
  | false =>
    cases value with
    | null => simp [cellFor, spellsToken]
    | bool b =>
      refine iff_of_false ?_ Bool.false_ne_true
      simp only [cellFor, json, Bool.false_eq_true, if_false]
      split_ifs
      · exact fun same => (words b).1 (Option.some.inj same)
      · exact fun same => (words true).2 (Option.some.inj same)
      · exact fun same => (words false).2 (Option.some.inj same)
      · exact fun same => (words b).1 (Option.some.inj same)
    | number n =>
      refine iff_of_false ?_ Bool.false_ne_true
      simp only [cellFor, json, Bool.false_eq_true, if_false, numberCell]
      split_ifs
      · exact fun same => printing.showNumber_ne n (Option.some.inj same)
      · exact fun same => (words true).1 (Option.some.inj same)
      · exact fun same => (words false).1 (Option.some.inj same)
      · exact not_false
      · exact printing.epochToIso_ne n
      · exact fun same => printing.showNumber_ne n (Option.some.inj same)
    | string s =>
      simp only [cellFor, json, Bool.false_eq_true, if_false]
      exact ⟨stringToken_of_cell json, stringCell_token json⟩
    | array items => simp [cellFor, spellsToken, json, printing.showJson_ne]
    | object members => simp [cellFor, spellsToken, json, printing.showJson_ne]

/-! ## Rows that come back -/

theorem fieldsOf_cells (coercion : Coercion) (dtype : Str → Str) (call : Call)
    (ingestTs : Option Str) (record : Json) :
    fieldsOf coercion dtype call ingestTs record =
      (cellsOf coercion dtype call ingestTs record).map (Option.getD · nullToken) := by
  rw [fieldsOf, cellsOf, List.map_append, List.map_append, List.map_map]
  congr 1
  cases ingestTs <;> rfl

/-- What `COPY` reads of the bytes: every field that is not the token. -/
theorem copyIn_csvBytes (coercion : Coercion) (dtype : Str → Str) (call : Call)
    (ingestTs : Option Str) :
    copyIn (csvBytes coercion dtype call ingestTs) =
      some (call.records.map fun record =>
        (cellsOf coercion dtype call ingestTs record).map fun cell =>
          copied (some (cell.getD nullToken))) := by
  have several : ∀ fs ∈ buildCsv coercion dtype call ingestTs, 2 ≤ fs.length := by
    intro fs member
    obtain ⟨record, -, rfl⟩ := List.mem_map.mp member
    rw [fieldsOf, List.length_append, List.length_append]
    simp only [List.length_cons]
    omega
  have decoded (text : Str) : Text.fromUtf8 (Text.utf8 text) = some text := by
    rw [Text.fromUtf8, Text.fromUtf8Lossy_utf8_self, if_pos rfl]
  have clean : Csv.Clean nullToken := by
    have letters : nullToken.all (fun c => !Csv.special.contains c) = true := by decide
    simpa [Csv.Clean] using letters
  have cell (s : Str) : CopyCsv.cellOf nullToken s = copied (some s) := by
    rw [CopyCsv.cellOf, copied, Option.filter_some]
    by_cases token : s = nullToken
    · rw [if_pos ⟨token ▸ clean, token⟩, if_neg (by simpa using token)]
    · rw [if_neg fun both => token both.2, if_pos (by simpa using token)]
  rw [copyIn, csvBytes, decoded, Option.bind_some, CopyCsv.read_write several, buildCsv,
    List.map_map]
  congr 2
  funext record
  rw [Function.comp_apply, fieldsOf_cells, List.map_map]
  exact List.map_congr_left fun entry _ => cell _

/-- A cell comes back unless it is the token. -/
theorem copied_getD {cell : Option Str} :
    copied (some (cell.getD nullToken)) = cell ↔ cell ≠ some nullToken := by
  cases cell with
  | none => simp [copied]
  | some s =>
    rw [Option.getD_some, copied, Option.filter_some]
    by_cases token : s = nullToken
    · simp [token]
    · simp [token]

/-- The cells of a record come back exactly if none of them is the token. -/
theorem cells_copied_iff (printing : Printing) (dtype : Str → Str) (call : Call)
    (ingestTs : Option Str) (record : Json) :
    ((cellsOf printing.toCoercion dtype call ingestTs record).map fun cell =>
        copied (some (cell.getD nullToken))) =
      cellsOf printing.toCoercion dtype call ingestTs record ↔
    (∀ name ∈ call.cols,
      spellsToken printing.unicode (valueAt record name) (dtype name) = false) ∧
      nullToken ∉ [call.source, call.sourceEndpoint, call.sourceRunId] ++ ingestTs.toList := by
  have each : ((cellsOf printing.toCoercion dtype call ingestTs record).map fun cell =>
        copied (some (cell.getD nullToken))) =
      cellsOf printing.toCoercion dtype call ingestTs record ↔
    ∀ cell ∈ cellsOf printing.toCoercion dtype call ingestTs record, cell ≠ some nullToken := by
    conv_lhs => rhs; rw [← List.map_id (cellsOf printing.toCoercion dtype call ingestTs record)]
    rw [List.map_inj_left]
    exact forall₂_congr fun cell _ => copied_getD
  rw [each, cellsOf, List.append_assoc, List.forall_mem_append]
  refine and_congr ?_ ?_
  · rw [List.forall_mem_map]
    refine forall₂_congr fun name _ => ?_
    rw [Ne, cellFor_token, Bool.not_eq_true]
  · have stamped : [some call.source, some call.sourceEndpoint, some call.sourceRunId] ++
          ingestTs.toList.map some =
        ([call.source, call.sourceEndpoint, call.sourceRunId] ++ ingestTs.toList).map some := rfl
    rw [stamped, List.forall_mem_map]
    constructor
    · intro all member
      exact all nullToken member rfl
    · intro absent s member same
      exact absent (Option.some.inj same ▸ member)

/-- All cells and the provenance come back from the bytes, row by row, exactly if the token
stands nowhere among the values and the provenance. -/
theorem comesBack_iff (printing : Printing) (dtype : Str → Str) (call : Call)
    (ingestTs : Option Str) :
    copyIn (csvBytes printing.toCoercion dtype call ingestTs) =
        some (call.records.map (cellsOf printing.toCoercion dtype call ingestTs)) ↔
      tokenFree printing.toCoercion dtype call ingestTs := by
  rw [copyIn_csvBytes, Option.some.injEq, List.map_inj_left, tokenFree]
  exact forall₂_congr fun record _ => cells_copied_iff printing dtype call ingestTs record

/-! ## The token as a text -/

/-- Some printing, of values that are not strings. -/
def somePrinting : Printing where
  unicode := Unicode.ascii
  showNumber _ := "0".str
  showJson _ := "[]".str
  epochToIso _ := none
  showNumber_ne _ := by decide
  showJson_ne _ := by decide
  epochToIso_ne _ := nofun

/-- A record whose note is the token. -/
def tokenNote : Call where
  cols := ["note".str]
  records := [.object [("note".str, .string nullToken)]]
  source := "feed".str
  sourceEndpoint := "notes".str
  sourceRunId := "1".str
  conflictCols := []

/-- The note is read as missing. -/
theorem tokenNote_lost : ¬∀ (printing : Printing) (dtype : Str → Str) (call : Call)
    (ingestTs : Option Str), copyIn (csvBytes printing.toCoercion dtype call ingestTs) =
      some (call.records.map (cellsOf printing.toCoercion dtype call ingestTs)) := by
  intro all
  have back := all somePrinting (fun _ => "text".str) tokenNote none
  rw [copyIn_csvBytes] at back
  exact absurd back (by decide +kernel)

end LumidPlatform.Write.Engine
