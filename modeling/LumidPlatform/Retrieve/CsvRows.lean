import LumidPlatform.Lib.Assoc
import LumidPlatform.Lib.Csv
import LumidPlatform.Retrieve.Replayer

/-!
# Materialized CSV

The first row of a plan fixes the columns of its output. Its names are written as they are, and the
cells of every row are escaped. What is read back is all that was written, exactly if no name has
to be escaped and every later row keeps to the columns of the first.
-/

namespace LumidPlatform.Retrieve.CsvRows

open Plan Replayer Blobs

variable {crates : Crates} {rows : List Record}

/-! ## The text of an output -/

/-- A value as it is printed in a cell. -/
def printed (crates : Crates) : Json → Str
  | .null => []
  | .bool b => Text.showBool b
  | .string s => s
  | other => Text.fromUtf8Lossy (crates.toVec other)

theorem csvEscape_eq (crates : Crates) (value : Json) :
    csvEscape crates value = Csv.escape (printed crates value) := by
  have same (s : Str) :
      (if s.contains ',' || s.contains '"' || s.contains '\n' || s.contains '\r' then
        '"' :: s.flatMap (fun c => if c = '"' then ['"', '"'] else [c]) ++ ['"'] else s) =
        Csv.escape s := by
    have clean : (s.contains ',' || s.contains '"' || s.contains '\n' || s.contains '\r') = true ↔
        ¬Csv.Clean s := by
      simp only [Bool.or_eq_true, List.contains_iff_mem, Csv.Clean, Csv.special, List.mem_cons,
        List.not_mem_nil, or_false, not_forall, not_not, exists_prop]
      constructor
      · rintro (((member | member) | member) | member)
        · exact ⟨_, member, .inl rfl⟩
        · exact ⟨_, member, .inr (.inl rfl)⟩
        · exact ⟨_, member, .inr (.inr (.inl rfl))⟩
        · exact ⟨_, member, .inr (.inr (.inr rfl))⟩
      · rintro ⟨c, member, rfl | rfl | rfl | rfl⟩
        · exact .inl (.inl (.inl member))
        · exact .inl (.inl (.inr member))
        · exact .inl (.inr member)
        · exact .inr member
    rw [Csv.escape]
    by_cases plain : Csv.Clean s
    · rw [if_neg (fun marked => clean.mp marked plain), if_pos plain]
    · rw [if_pos (clean.mpr plain), if_neg plain]
      rfl
  cases value with
  | null => exact same []
  | bool b => exact same _
  | string s => exact same s
  | number n => exact same _
  | array items => exact same _
  | object members => exact same _

/-- The rows written to a CSV materializer, one after the other. -/
def written (crates : Crates) (rows : List Record) : Materializer :=
  rows.foldl (fun m row => m.writeRow crates row) (Materializer.new .csv)

/-- The columns of the output: those of the first row. -/
def columns : List Record → List Str
  | [] => []
  | first :: _ => first.map Prod.fst

def cells (crates : Crates) (names : List Str) (row : Record) : List Str :=
  names.map (fun name => printed crates ((List.lookup name row).getD .null))

/-- The lines of some rows. -/
def body (crates : Crates) (names : List Str) (rows : List Record) : Str :=
  rows.flatMap (fun row => Csv.line ((cells crates names row).map Csv.escape))

theorem csvLine_eq (crates : Crates) (names : List Str) (row : Record) :
    Materializer.csvLine crates names row =
      Text.utf8 (Csv.line ((cells crates names row).map Csv.escape)) := by
  rw [Materializer.csvLine, Csv.line, cells, List.map_map]
  simp only [csvEscape_eq]
  rfl

/-- After the first row, each one adds its line. -/
theorem written_later (crates : Crates) (names : List Str) (buf : Bytes) (rows : List Record) :
    rows.foldl (fun m row => Materializer.writeRow crates row m) ⟨.csv, buf, some names⟩ =
      ⟨.csv, buf ++ Text.utf8 (body crates names rows), some names⟩ := by
  induction rows generalizing buf with
  | nil => simp [body, Text.utf8]
  | cons row rows inductionHypothesis =>
    have step : Materializer.writeRow crates row ⟨.csv, buf, some names⟩ =
        ⟨.csv, buf ++ Materializer.csvLine crates names row, some names⟩ := rfl
    rw [List.foldl_cons, step, inductionHypothesis, csvLine_eq, List.append_assoc,
      ← Text.utf8_append]
    rfl

/-- The output of some rows: the names of the columns, and the lines. -/
theorem written_buf (crates : Crates) (first : Record) (rows : List Record) :
    (written crates (first :: rows)).buf =
      Text.utf8 (Csv.line (first.map Prod.fst) ++
        body crates (first.map Prod.fst) (first :: rows)) := by
  have step : Materializer.writeRow crates first (Materializer.new .csv) =
      ⟨.csv, [] ++ Text.utf8 (Csv.line (first.map Prod.fst)) ++
        Materializer.csvLine crates (first.map Prod.fst) first, some (first.map Prod.fst)⟩ := rfl
  rw [written, List.foldl_cons, step, written_later, csvLine_eq, List.nil_append,
    ← Text.utf8_append, ← Text.utf8_append, body, body, List.flatMap_cons, List.append_assoc]

/-! ## Plans -/

/-- The rows that a step of a plan writes. -/
def stepRows (crates : Crates) : RetrievalOp → Fetched → List Record
  | _, .rows records => records
  | .storageGet _ key, .object bytes => [descriptor crates key bytes]
  | .sql _, .object _ => []

theorem recordStep_csv (crates : Crates) (rows : List Record) (op : RetrievalOp)
    (fetched : Fetched) :
    recordStep crates .csv op fetched (written crates rows) =
      (written crates (rows ++ stepRows crates op fetched),
        (stepRows crates op fetched).length) := by
  have more (records : List Record) : written crates (rows ++ records) =
      records.foldl (fun m row => m.writeRow crates row) (written crates rows) :=
    List.foldl_append
  cases fetched with
  | rows records =>
    cases op with
    | sql query => rw [more]; rfl
    | storageGet bucket key => rw [more]; rfl
  | object bytes =>
    cases op with
    | sql query => rw [more]; rfl
    | storageGet bucket key => rw [more]; rfl

/-- The rows of the steps that come through. -/
def planRows (state : RetrievalState) (content : Content) (ops : List RetrievalOp) : List Record :=
  ops.flatMap fun op =>
    match fetchOp state content op with
    | some (.ok fetched) => stepRows state.blobs.crates op fetched
    | _ => []

/-- A plan that comes to its end has written the rows of its steps, in order. -/
theorem plan_written {state : RetrievalState} {content : Content} {moment : Moment}
    {ops : List RetrievalOp} {progress finished : Progress} {rows : List Record}
    (before : progress.materializer = written state.blobs.crates rows)
    (run : replayOps state content .csv moment ops progress = some (.ok finished)) :
    finished.materializer =
      written state.blobs.crates (rows ++ planRows state content ops) := by
  induction ops generalizing progress rows with
  | nil =>
    obtain rfl : progress = finished := Except.ok.inj (Option.some.inj run)
    rw [before, planRows, List.flatMap_nil, List.append_nil]
  | cons op ops inductionHypothesis =>
    rw [replayOps] at run
    cases fetches : fetchOp state content op with
    | none =>
      rw [fetches] at run
      cases run
    | some outcome =>
      rw [fetches] at run
      cases outcome with
      | error error => cases run
      | ok fetched =>
        dsimp only at run
        have step := inductionHypothesis (by rw [before, recordStep_csv]) run
        rw [step, planRows, planRows, List.flatMap_cons, fetches, List.append_assoc]

/-! ## What is read back -/

/-- A reader finds the columns of the first row, if it has any, and for each row a record with
every value of it that is not null under the name of its column. -/
def ReadsBack (crates : Crates) (rows : List Record) (text : Str) : Prop :=
  ∃ header records, Csv.parse text = some (header :: records) ∧
    (columns rows ≠ [] → header = columns rows) ∧
    List.Forall₂ (fun row record => ∀ name value, List.lookup name row = some value →
      value ≠ .null → List.lookup name (header.zip record) = some (printed crates value))
      rows records

/-- The output of the rows, as text, is read back. -/
def Lossless (crates : Crates) (rows : List Record) : Prop :=
  rows ≠ [] → ∃ text, Text.utf8 text = (written crates rows).buf ∧ ReadsBack crates rows text

/-- The rows have no value outside the columns of the first. (Where that one has no columns, an
empty value without a name is read from the empty lines.) -/
def Fits (crates : Crates) (rows : List Record) : Prop :=
  ∀ row ∈ rows, ∀ name value, List.lookup name row = some value → value ≠ .null →
    name ∈ columns rows ∨ columns rows = [] ∧ name = [] ∧ printed crates value = []

theorem lookup_zip (names : List Str) (value : Str → Str) (name : Str) :
    List.lookup name (names.zip (names.map value)) =
      if name ∈ names then some (value name) else none := by
  rw [← List.map_prod_left_eq_zip, Assoc.lookup_map]

/-- The lines of rows under columns that have names, or under none. -/
theorem parse_body (names : List Str) (rows : List Record) :
    Csv.parse (body crates names rows) =
      some (rows.map (fun row => Csv.fill (cells crates names row))) := by
  have lines := Csv.parse_lines (rows.map (cells crates names))
  rw [List.flatMap_map, List.map_map] at lines
  exact lines

/-- The names of the columns are read back as they are exactly if none has to be escaped. -/
theorem header_reads {first : Record} {header : List Str} {records : List (List Str)}
    {after : Str}
    (reads : Csv.parse (Csv.line (first.map Prod.fst) ++ after) = some (header :: records))
    (same : first.map Prod.fst ≠ [] → header = first.map Prod.fst) :
    ∀ name ∈ first.map Prod.fst, Csv.Clean name := by
  generalize first.map Prod.fst = names at reads same
  cases names with
  | nil => exact fun _ member => by cases member
  | cons name names =>
    rw [Csv.parse, if_neg (by simp [Csv.line]), Csv.line, List.append_assoc,
      List.singleton_append] at reads
    obtain ⟨r, inside, whole⟩ := Option.map_eq_some_iff.mp reads
    obtain ⟨front, -⟩ := List.cons.inj whole
    obtain ⟨field, fields⟩ := List.cons.inj (front.trans (same (List.cons_ne_nil _ _)))
    exact Csv.clean_of_line inside field fields

theorem clean_line {names : List Str} (clean : ∀ name ∈ names, Csv.Clean name) :
    Csv.line names = Csv.line (names.map Csv.escape) := by
  have same : names.map Csv.escape = names.map id :=
    List.map_congr_left fun name member => Csv.escape_clean (clean name member)
  rw [same, List.map_id]

/-- The text of an output with clean names. -/
theorem parse_text {names : List Str} (clean : ∀ name ∈ names, Csv.Clean name)
    (rows : List Record) :
    Csv.parse (Csv.line names ++ body crates names rows) =
      some (Csv.fill names :: rows.map (fun row => Csv.fill (cells crates names row))) := by
  rw [clean_line clean, Csv.parse_line, parse_body]
  rfl

/-- What is read back fits, and the names were clean. -/
theorem fits_of_lossless {first : Record} {rest : List Record}
    (lossless : Lossless crates (first :: rest)) :
    (∀ name ∈ first.map Prod.fst, Csv.Clean name) ∧ Fits crates (first :: rest) := by
  obtain ⟨text, bytes, header, records, reads, same, values⟩ := lossless (List.cons_ne_nil _ _)
  rw [written_buf] at bytes
  obtain rfl := Text.utf8_injective bytes
  have clean := header_reads reads same
  refine ⟨clean, fun row member name value found notNull => ?_⟩
  rw [parse_text clean] at reads
  obtain ⟨rfl, rfl⟩ := List.cons.inj (Option.some.inj reads)
  have back := List.forall₂_same.mp (List.forall₂_map_right_iff.mp values) row member name value
    found notNull
  by_cases empty : first.map Prod.fst = []
  · refine .inr ⟨empty, ?_⟩
    rw [empty] at back
    by_cases unnamed : name = []
    · subst unnamed
      exact ⟨rfl, (Option.some.inj back).symm⟩
    · have lost : List.lookup name ((Csv.fill []).zip (Csv.fill (cells crates [] row))) = none := by
        rw [Csv.fill, cells, List.map_nil, Csv.fill]
        simp [unnamed]
      rw [lost] at back
      cases back
  · left
    have filled : Csv.fill (first.map Prod.fst) = first.map Prod.fst := same empty
    have whole : Csv.fill (cells crates (first.map Prod.fst) row) =
        cells crates (first.map Prod.fst) row := by
      rw [Csv.fill, if_neg]
      simpa [cells] using empty
    rw [filled, whole, cells, lookup_zip] at back
    by_contra missing
    rw [if_neg (show name ∉ first.map Prod.fst from missing)] at back
    cases back

/-- Rows that fit, under clean names, are read back. -/
theorem lossless_of_fits {first : Record} {rest : List Record}
    (clean : ∀ name ∈ first.map Prod.fst, Csv.Clean name) (fits : Fits crates (first :: rest)) :
    Lossless crates (first :: rest) := by
  intro _
  refine ⟨_, (written_buf crates first rest).symm, _, _, parse_text clean _, ?_, ?_⟩
  · intro filled
    exact if_neg (fun empty => filled (List.isEmpty_iff.mp empty))
  · rw [List.forall₂_map_right_iff, List.forall₂_same]
    intro row member name value found notNull
    rcases fits row member name value found notNull with inColumns | ⟨empty, rfl, blank⟩
    · have filled : ¬(first.map Prod.fst).isEmpty = true := by
        rw [List.isEmpty_iff]
        exact List.ne_nil_of_mem inColumns
      have inFirst : name ∈ first.map Prod.fst := inColumns
      rw [Csv.fill, if_neg filled, Csv.fill, if_neg (by simpa [cells] using filled), cells,
        lookup_zip, if_pos inFirst, found]
      rfl
    · have none' : first.map Prod.fst = [] := empty
      rw [none', blank]
      rfl

/-- The output of any rows gives all that was written, exactly if no name of the first row has to
be escaped and the later rows keep to its columns. -/
theorem csv_lossless_iff (crates : Crates) (rows : List Record) :
    Lossless crates rows ↔ (∀ name ∈ columns rows, Csv.Clean name) ∧ Fits crates rows := by
  cases rows with
  | nil => exact iff_of_true (fun some' => absurd rfl some') ⟨nofun, nofun⟩
  | cons first rest =>
    constructor
    · exact fits_of_lossless
    · exact fun both => lossless_of_fits both.1 both.2

/-- Two steps of a plan, each with a column of its own. -/
def uneven : List Record := [[("a".str, .string "1".str)], [("b".str, .string "2".str)]]

/-- The column of the second step is lost. -/
theorem second_column_lost : ¬Lossless Crates.plain uneven := by
  intro lossless
  obtain ⟨-, fits⟩ := fits_of_lossless lossless
  rcases fits [("b".str, .string "2".str)] (by simp) "b".str (.string "2".str) rfl nofun with
    kept | ⟨impossible, -⟩
  · exact absurd kept (by decide)
  · cases impossible

end LumidPlatform.Retrieve.CsvRows
