import LumidPlatform.Ingest.Idents
import LumidPlatform.Error
import LumidPlatform.Lib.Assoc
import LumidPlatform.Write.Validation

/-!
# Rows for ClickHouse

A batch for ClickHouse is one statement, with a line of JSON for each record. The statement is
handed to the client as a template, in which a question mark is a place for a value. So the rows
are executed as they were written exactly where nothing in the batch has a question mark.
-/

namespace LumidPlatform.Write.JsonEachRow

open LumidPlatform.Ingest (normIdent isIdentChar)

/-! ## The client -/

/-- What the client makes of a template without values: two question marks are one of the
statement, and a single one wants a value. -/
def expand : Str → Except Str Str
  | '?' :: '?' :: rest => do
    let statement ← expand rest
    pure ('?' :: statement)
  | '?' :: _ => throw "unbound query argument".str
  | c :: rest => do
    let statement ← expand rest
    pure (c :: statement)
  | [] => pure []

/-- A character other than a question mark is kept. -/
theorem expand_cons {c : Char} (other : c ≠ '?') (rest : Str) :
    expand (c :: rest) = (expand rest).map (c :: ·) := by
  rw [expand.eq_3 c rest (fun _ same => absurd same other) other]
  rfl

/-- A question mark of the template is missed in the statement. -/
theorem expand_shorter {template statement : Str} (expanded : expand template = .ok statement) :
    statement.length + (if '?' ∈ template then 1 else 0) ≤ template.length := by
  induction template using expand.induct generalizing statement with
  | case1 rest inductionHypothesis =>
    rw [expand] at expanded
    cases inner : expand rest with
    | error e =>
      rw [inner] at expanded
      cases expanded
    | ok more =>
      rw [inner] at expanded
      obtain rfl := Except.ok.inj expanded
      have behind := inductionHypothesis inner
      rw [if_pos List.mem_cons_self, List.length_cons, List.length_cons, List.length_cons]
      omega
  | case2 rest single =>
    rw [expand.eq_2 rest single] at expanded
    cases expanded
  | case3 c rest double single inductionHypothesis =>
    have other : c ≠ '?' := fun same => single same
    rw [expand_cons other] at expanded
    cases inner : expand rest with
    | error e =>
      rw [inner] at expanded
      cases expanded
    | ok more =>
      rw [inner] at expanded
      obtain rfl := Except.ok.inj expanded
      have behind := inductionHypothesis inner
      simp only [List.mem_cons, other.symm, false_or, List.length_cons]
      omega
  | case4 =>
    obtain rfl := Except.ok.inj expanded
    simp

/-- A template is executed as it stands exactly when it has no question mark. -/
theorem expand_eq_self_iff (template : Str) : expand template = .ok template ↔ '?' ∉ template := by
  constructor
  · intro same member
    have shorter := expand_shorter same
    rw [if_pos member] at shorter
    omega
  · intro plain
    induction template with
    | nil => rfl
    | cons c rest inductionHypothesis =>
      rw [List.mem_cons, not_or] at plain
      rw [expand_cons (Ne.symm plain.1), inductionHypothesis plain.2]
      rfl

/-- What has no question mark is left before the statement of the rest. -/
theorem expand_append {plain : Str} (unmarked : '?' ∉ plain) (template : Str) :
    expand (plain ++ template) = (expand template).map (plain ++ ·) := by
  induction plain with
  | nil =>
    cases expanded : expand template <;> simp [expanded, Except.map]
  | cons c rest inductionHypothesis =>
    rw [List.mem_cons, not_or] at unmarked
    rw [List.cons_append, expand_cons (Ne.symm unmarked.1), inductionHypothesis unmarked.2]
    cases expand template <;> rfl

/-! ## JSON text -/

mutual

/-- Whether a key or a string of a value has a question mark. -/
def asks : Json → Bool
  | .string s => s.contains '?'
  | .array items => asksItems items
  | .object members => asksMembers members
  | .null => false
  | .bool _ => false
  | .number _ => false

/-- The same of the items of an array. -/
def asksItems : List Json → Bool
  | [] => false
  | item :: rest => asks item || asksItems rest

/-- The same of the members of an object, whose names count too. -/
def asksMembers : List (Str × Json) → Bool
  | [] => false
  | (key, value) :: rest => key.contains '?' || asks value || asksMembers rest

end

/-- `Value::to_string`, the compact form of `serde_json`. -/
structure JsonPrinter where
  text : Json → Str
  text_string : ∀ s, text (.string s) = '"' :: s.flatMap Crates.Plain.escapeChar ++ ['"']
  text_array : ∀ items, text (.array items) =
    '[' :: Text.join [','] (items.map text) ++ [']']
  text_object : ∀ members, text (.object members) =
    '\x7b' :: Text.join [',']
      (members.map (fun entry => text (.string entry.1) ++ ':' :: text entry.2)) ++ ['\x7d']
  text_null : text .null = "null".str
  text_bool : ∀ b, text (.bool b) = Text.showBool b
  /-- Digits, a sign, a point and an exponent. -/
  text_number : ∀ n, '?' ∉ text (.number n)

/-- A character that is not in the separator is in a join if it is in a part. -/
theorem mem_join {separator : Str} (plain : '?' ∉ separator) {parts : List Str} :
    '?' ∈ Text.join separator parts ↔ ∃ part ∈ parts, '?' ∈ part := by
  rw [Text.join]
  induction parts with
  | nil => simp
  | cons part rest inductionHypothesis =>
    cases rest with
    | nil => simp
    | cons next others =>
      rw [List.intercalate_cons_cons, List.mem_append, List.mem_append, inductionHypothesis,
        or_iff_left plain]
      exact (List.exists_mem_cons_iff _ part (next :: others)).symm

/-- A character that is in neither branch is not in the choice. -/
theorem notMem_ite {c : Char} {p : Prop} [Decidable p] {s t : Str} (yes : p → c ∉ s)
    (no : ¬p → c ∉ t) : c ∉ if p then s else t := by
  by_cases holds : p
  · rw [if_pos holds]
    exact yes holds
  · rw [if_neg holds]
    exact no holds

/-- Escaping a text neither adds nor drops question marks. -/
theorem mem_escape (s : Str) : '?' ∈ s.flatMap Crates.Plain.escapeChar ↔ '?' ∈ s := by
  have digit : ∀ n < 16, '?' ≠ Nat.digitChar n := by decide
  have escaped (c : Char) : '?' ∈ Crates.Plain.escapeChar c ↔ '?' = c := by
    by_cases here : c = '?'
    · subst here
      decide
    · rw [eq_comm, iff_false_right here, Crates.Plain.escapeChar]
      refine notMem_ite (fun _ => by decide) fun _ => ?_
      refine notMem_ite (fun _ => by decide) fun _ => ?_
      refine notMem_ite (fun _ => by decide) fun _ => ?_
      refine notMem_ite (fun _ => by decide) fun _ => ?_
      refine notMem_ite (fun _ => by decide) fun _ => ?_
      refine notMem_ite (fun _ => by decide) fun _ => ?_
      refine notMem_ite (fun _ => by decide) fun _ => ?_
      refine notMem_ite (fun control => ?_) fun _ => ?_
      · have high := digit (c.toNat / 16) (by omega)
        have low := digit (c.toNat % 16) (by omega)
        rw [List.mem_append, not_or]
        refine ⟨by decide, fun member => ?_⟩
        obtain here' | member := List.mem_cons.mp member
        · exact high here'
        · exact low (List.mem_singleton.mp member)
      · simpa using Ne.symm here
  rw [List.mem_flatMap]
  simp only [escaped, exists_eq_right']

namespace JsonPrinter

variable (printer : JsonPrinter)

/-- So a string is printed with one exactly if it has one. -/
theorem mem_string (s : Str) : '?' ∈ printer.text (.string s) ↔ '?' ∈ s := by
  rw [text_string, List.mem_append, List.mem_cons, mem_escape]
  simp

mutual

/-- A question mark of the text stands in a key or a string. -/
theorem mem_text : ∀ value : Json, '?' ∈ printer.text value ↔ asks value = true
  | .null => by
    rw [text_null, asks]
    decide
  | .bool b => by
    rw [text_bool, asks]
    cases b <;> decide
  | .number n => iff_of_false (printer.text_number n) (by simp [asks])
  | .string s => by
    rw [mem_string, asks, List.contains_iff_mem]
  | .array items => by
    rw [text_array, List.mem_append, List.mem_cons, mem_join (by simp), asks,
      ← mem_items items]
    simp
  | .object members => by
    rw [text_object, List.mem_append, List.mem_cons, mem_join (by simp), asks,
      ← mem_members members]
    simp

/-- An array is printed with one exactly if an item has one. -/
theorem mem_items : ∀ items : List Json,
    (∃ item ∈ items, '?' ∈ printer.text item) ↔ asksItems items = true
  | [] => by simp [asksItems]
  | item :: rest => by
    rw [List.exists_mem_cons_iff, mem_text item, mem_items rest, asksItems, Bool.or_eq_true]

/-- An object is printed with one exactly if a name or a value has one. -/
theorem mem_members : ∀ members : List (Str × Json),
    (∃ entry ∈ members, '?' ∈ printer.text (.string entry.1) ++ ':' :: printer.text entry.2) ↔
      asksMembers members = true
  | [] => by simp [asksMembers]
  | (key, value) :: rest => by
    rw [List.exists_mem_cons_iff, mem_members rest, List.mem_append, List.mem_cons, mem_string,
      mem_text value, asksMembers, Bool.or_eq_true, Bool.or_eq_true, List.contains_iff_mem]
    simp

end

mutual

/-- Compact text, with whole numbers only. -/
def plainText : Json → Str
  | .null => "null".str
  | .bool b => Text.showBool b
  | .number (.int n) => Text.showInt n
  | .number (.float _) => "0.0".str
  | .string s => '"' :: s.flatMap Crates.Plain.escapeChar ++ ['"']
  | .array items => '[' :: Text.join [','] (plainItems items) ++ [']']
  | .object members => '\x7b' :: Text.join [','] (plainMembers members) ++ ['\x7d']

/-- The same of the items of an array. -/
def plainItems : List Json → List Str
  | [] => []
  | item :: rest => plainText item :: plainItems rest

/-- The same of the members of an object. -/
def plainMembers : List (Str × Json) → List Str
  | [] => []
  | (key, value) :: rest =>
    ('"' :: key.flatMap Crates.Plain.escapeChar ++ ['"'] ++ ':' :: plainText value) ::
      plainMembers rest

end

/-- Items are printed one by one. -/
theorem plainItems_eq (items : List Json) : plainItems items = items.map plainText := by
  induction items with
  | nil => rfl
  | cons item rest inductionHypothesis => rw [plainItems, inductionHypothesis, List.map_cons]

/-- Members are printed one by one. -/
theorem plainMembers_eq (members : List (Str × Json)) : plainMembers members =
    members.map (fun entry => plainText (.string entry.1) ++ ':' :: plainText entry.2) := by
  induction members with
  | nil => rfl
  | cons entry rest inductionHypothesis =>
    rw [plainMembers, inductionHypothesis, List.map_cons, plainText]

/-- No number is printed with a question mark. -/
theorem question_not_mem_plainNumber (n : JsonNumber) : '?' ∉ plainText (.number n) := by
  cases n with
  | float x =>
    rw [plainText]
    decide
  | int n =>
    rw [plainText]
    have digits (n : Nat) : '?' ∉ Text.showNat n :=
      fun member => absurd (Text.isDigit_of_mem_showNat member) (by decide)
    cases n with
    | ofNat n => exact digits n
    | negSucc n =>
      rw [Text.showInt, List.mem_cons, not_or]
      exact ⟨by decide, digits _⟩

/-- The printer of plain values; a number is written as a sign and digits. -/
def plain : JsonPrinter where
  text := plainText
  text_string _ := by rw [plainText]
  text_array items := by rw [plainText, plainItems_eq]
  text_object members := by rw [plainText, plainMembers_eq]
  text_null := by rw [plainText]
  text_bool _ := by rw [plainText]
  text_number := question_not_mem_plainNumber

end JsonPrinter

/-! ## Rows -/

/-- A `Uuid`, as text. -/
structure Uuid where
  text : Str
  digits : ∀ c ∈ text, Text.isAsciiAlphanumeric c = true ∨ c = '-'

/-- An instant as `%Y-%m-%d %H:%M:%S%.6f`. -/
structure Instant where
  text : Str
  digits : ∀ c ∈ text, Text.isAsciiDigit c = true ∨ c ∈ "+-: .".str

/-- What the engine is asked to write. -/
structure WriteRequest where
  schema : Str
  table : Str
  tableMeta : TableMeta
  records : List Json
  source : Str
  sourceEndpoint : Str
  sourceRunId : Uuid

/-- The columns that callers may write. -/
def writable (table : TableMeta) : List Str :=
  (table.columns.map ColumnInfo.name).filter (fun column => !serverStampedCols.contains column)

/-- A writable column of a record is taken over. -/
def pick (obj : JsonMap) (row : JsonMap) (column : Str) : JsonMap :=
  match JsonMap.get obj column with
  | some value => JsonMap.insert column value row
  | none => row

/-- The columns of a record that callers may write, and the provenance of its row. -/
def stampRow (printer : JsonPrinter) (columns : List Str)
    (source sourceEndpoint sourceRunId now : Str) (record : Json) : JsonMap :=
  let picked := match record.asObject? with
    | some obj => columns.foldl (pick obj) []
    | none => []
  JsonMap.insert "raw".str (.string (printer.text record))
    (JsonMap.insert "ingest_ts".str (.string now)
      (JsonMap.insert "source_run_id".str (.string sourceRunId)
        (JsonMap.insert "source_endpoint".str (.string sourceEndpoint)
          (JsonMap.insert "source".str (.string source) picked))))

/-- The row of a record of a request. -/
def row (printer : JsonPrinter) (req : WriteRequest) (now : Instant) (record : Json) : JsonMap :=
  stampRow printer (writable req.tableMeta) req.source req.sourceEndpoint req.sourceRunId.text
    now.text record

/-- A line for each row. -/
def linesOf (printer : JsonPrinter) (rows : List JsonMap) : Str :=
  rows.flatMap (fun row => printer.text (.object row) ++ ['\n'])

/-- The lines of a request. -/
def body (printer : JsonPrinter) (req : WriteRequest) (now : Instant) : Str :=
  linesOf printer (req.records.map (row printer req now))

/-- What is written before the rows. -/
def opening (schema table : Str) : Str :=
  "INSERT INTO `".str ++ schema ++ "`.`".str ++ table ++ "` FORMAT JSONEachRow\n".str

/-- The statement for some rows; no rows have none. -/
def statement (unicode : Unicode) (printer : JsonPrinter) (schema table : Str)
    (rows : List JsonMap) : ApiResult (Option Str) :=
  if rows.isEmpty then .ok none
  else
    match normIdent unicode schema with
    | none => .error (.internal ("bad schema ".str ++ unicode.debug schema))
    | some schemaN =>
      match normIdent unicode table with
      | none => .error (.internal ("bad table ".str ++ unicode.debug table))
      | some tableN => .ok (some (opening schemaN tableN ++ linesOf printer rows))

/-- The statement that `write_records` hands to the client; an empty batch has none. -/
def handed (unicode : Unicode) (printer : JsonPrinter) (req : WriteRequest) (now : Instant) :
    ApiResult (Option Str) :=
  statement unicode printer req.schema req.table (req.records.map (row printer req now))

/-- What becomes of some rows, over what the server does with a statement. -/
def sendRows {S : Type} (unicode : Unicode) (printer : JsonPrinter)
    (server : Str → S → Except Str S) (schema table : Str) (rows : List JsonMap) (stored : S) :
    ApiResult (Nat × Nat) × S :=
  match statement unicode printer schema table rows with
  | .error error => (.error error, stored)
  | .ok none => (.ok (0, 0), stored)
  | .ok (some template) =>
    match expand template >>= fun text => server text stored with
    | .error e => (.error (.internal ("clickhouse insert: ".str ++ e)), stored)
    | .ok after => (.ok (rows.length, 0), after)

/-- `write_records`. -/
def writeRecords {S : Type} (unicode : Unicode) (printer : JsonPrinter)
    (server : Str → S → Except Str S) (req : WriteRequest) (now : Instant) (stored : S) :
    ApiResult (Nat × Nat) × S :=
  sendRows unicode printer server req.schema req.table (req.records.map (row printer req now))
    stored

/-- A statement for rows names their table by its normal form. -/
theorem statement_ok {unicode : Unicode} {printer : JsonPrinter} {schema table : Str}
    {rows : List JsonMap} {template : Str}
    (given : statement unicode printer schema table rows = .ok (some template)) :
    rows ≠ [] ∧ ∃ schemaN tableN, normIdent unicode schema = some schemaN ∧
      normIdent unicode table = some tableN ∧
        template = opening schemaN tableN ++ linesOf printer rows := by
  rw [statement] at given
  by_cases empty : rows.isEmpty = true
  · rw [if_pos empty] at given
    cases given
  rw [if_neg empty] at given
  refine ⟨fun none => empty (List.isEmpty_iff.mpr none), ?_⟩
  cases schemaEq : normIdent unicode schema with
  | none =>
    rw [schemaEq] at given
    cases given
  | some schemaN =>
    cases tableEq : normIdent unicode table with
    | none =>
      rw [schemaEq, tableEq] at given
      cases given
    | some tableN =>
      rw [schemaEq, tableEq] at given
      exact ⟨schemaN, tableN, rfl, rfl, (Option.some.inj (Except.ok.inj given)).symm⟩

/-! ### What a row says -/

/-- An object asks if one of its names or values does. -/
theorem asksMembers_iff {members : JsonMap} :
    asksMembers members = true ↔ ∃ entry ∈ members, '?' ∈ entry.1 ∨ asks entry.2 = true := by
  induction members with
  | nil => simp [asksMembers]
  | cons entry rest inductionHypothesis =>
    rw [asksMembers, Bool.or_eq_true, Bool.or_eq_true, inductionHypothesis,
      List.contains_iff_mem]
    simp only [List.mem_cons, exists_eq_or_imp]

/-- An inserted value is there, and nothing else is new. -/
theorem mem_insert (key : Str) (value : Json) (map : JsonMap) :
    (key, value) ∈ JsonMap.insert key value map ∧
      ∀ entry ∈ JsonMap.insert key value map, entry = (key, value) ∨ entry ∈ map := by
  induction map with
  | nil => simp [JsonMap.insert]
  | cons first rest inductionHypothesis =>
    rw [JsonMap.insert]
    split_ifs with same
    · obtain rfl := same
      refine ⟨List.mem_cons_self, fun entry member => ?_⟩
      rcases List.mem_cons.mp member with here | later
      · exact Or.inl here
      · exact Or.inr (List.mem_cons_of_mem _ later)
    · refine ⟨List.mem_cons_of_mem _ inductionHypothesis.1, fun entry member => ?_⟩
      rcases List.mem_cons.mp member with here | later
      · exact Or.inr (here ▸ List.mem_cons_self)
      · exact (inductionHypothesis.2 entry later).imp_right (List.mem_cons_of_mem _)

/-- A member that is set leaves the others. -/
theorem mem_insert_of_ne {key name : Str} (other : name ≠ key) {old : Json} {map : JsonMap}
    (member : (name, old) ∈ map) (value : Json) :
    (name, old) ∈ JsonMap.insert key value map := by
  induction map with
  | nil => cases member
  | cons first rest inductionHypothesis =>
    rw [JsonMap.insert]
    rcases List.mem_cons.mp member with rfl | later
    · rw [if_neg other]
      exact List.mem_cons_self
    · split_ifs
      · exact List.mem_cons_of_mem _ later
      · exact List.mem_cons_of_mem _ (inductionHypothesis later)

/-- What is taken over from a record is in the record. -/
theorem mem_picked {obj : JsonMap} {columns : List Str} {start : JsonMap} {entry : Str × Json}
    (member : entry ∈ columns.foldl (pick obj) start) : entry ∈ start ∨ entry ∈ obj := by
  induction columns generalizing start with
  | nil => exact Or.inl member
  | cons column rest inductionHypothesis =>
    rcases inductionHypothesis member with picked | inside
    · rw [pick] at picked
      cases found : JsonMap.get obj column with
      | none =>
        rw [found] at picked
        exact Or.inl picked
      | some value =>
        rw [found] at picked
        rcases (mem_insert column value start).2 entry picked with rfl | earlier
        · exact Or.inr (Assoc.mem_of_lookup found)
        · exact Or.inl earlier
    · exact Or.inr inside

/-- No id has a question mark. -/
theorem Uuid.plain (run : Uuid) : '?' ∉ run.text := by
  intro member
  rcases run.digits '?' member with letter | hyphen
  · exact absurd letter (by decide)
  · exact absurd hyphen (by decide)

/-- Nor has an instant. -/
theorem Instant.plain (now : Instant) : '?' ∉ now.text := by
  intro member
  rcases now.digits '?' member with digit | mark
  · exact absurd digit (by decide)
  · exact absurd mark (by decide)

/-- Nor has a normal name. -/
theorem normIdent_plain {unicode : Unicode} {s ident : Str}
    (normal : normIdent unicode s = some ident) : '?' ∉ ident := by
  intro member
  rw [normIdent] at normal
  split_ifs at normal with checked
  obtain rfl := Option.some.inj normal
  rw [Bool.and_eq_true] at checked
  have letter := List.all_eq_true.mp checked.2 '?' member
  exact absurd letter (by decide)

/-- A row has a question mark exactly where the record has one or its source does. The record is
copied whole into its row. -/
theorem asks_row (printer : JsonPrinter) (req : WriteRequest) (now : Instant) (record : Json) :
    asks (.object (row printer req now record)) = true ↔
      '?' ∈ req.source ∨ '?' ∈ req.sourceEndpoint ∨ asks record = true := by
  have string (s : Str) : asks (.string s) = true ↔ '?' ∈ s := by
    rw [asks, List.contains_iff_mem]
  rw [asks, asksMembers_iff]
  constructor
  · rintro ⟨entry, member, marked⟩
    rw [row, stampRow] at member
    have stamp {key s : Str} (plainKey : '?' ∉ key) (same : entry = (key, .string s)) :
        '?' ∈ s := by
      subst same
      exact (string s).mp (marked.resolve_left plainKey)
    rcases (mem_insert _ _ _).2 _ member with same | member
    · exact Or.inr (Or.inr ((printer.mem_text record).mp (stamp (by decide) same)))
    rcases (mem_insert _ _ _).2 _ member with same | member
    · exact absurd (stamp (by decide) same) now.plain
    rcases (mem_insert _ _ _).2 _ member with same | member
    · exact absurd (stamp (by decide) same) req.sourceRunId.plain
    rcases (mem_insert _ _ _).2 _ member with same | member
    · exact Or.inr (Or.inl (stamp (by decide) same))
    rcases (mem_insert _ _ _).2 _ member with same | member
    · exact Or.inl (stamp (by decide) same)
    cases record with
    | object obj =>
      rcases mem_picked member with none | inside
      · cases none
      · rw [asks, asksMembers_iff]
        exact Or.inr (Or.inr ⟨entry, inside, marked⟩)
    | _ => cases member
  · rintro (source | endpoint | record_marked)
    · refine ⟨("source".str, .string req.source), ?_, Or.inr ((string _).mpr source)⟩
      have placed := (mem_insert "source".str (.string req.source) (match record.asObject? with
        | some obj => (writable req.tableMeta).foldl (pick obj) []
        | none => [])).1
      exact mem_insert_of_ne (by decide) (mem_insert_of_ne (by decide)
        (mem_insert_of_ne (by decide) (mem_insert_of_ne (by decide) placed _) _) _) _
    · refine ⟨("source_endpoint".str, .string req.sourceEndpoint), ?_,
        Or.inr ((string _).mpr endpoint)⟩
      exact mem_insert_of_ne (by decide) (mem_insert_of_ne (by decide)
        (mem_insert_of_ne (by decide) (mem_insert _ _ _).1 _) _) _
    · refine ⟨("raw".str, .string (printer.text record)), (mem_insert _ _ _).1, Or.inr ?_⟩
      exact (string _).mpr ((printer.mem_text record).mpr record_marked)

/-- What is written before the rows is executed as it stands. -/
theorem opening_plain {unicode : Unicode} {schema table schemaN tableN : Str}
    (schemaEq : normIdent unicode schema = some schemaN)
    (tableEq : normIdent unicode table = some tableN) : '?' ∉ opening schemaN tableN := by
  simp only [opening, List.mem_append, not_or]
  exact ⟨⟨⟨⟨by decide, normIdent_plain schemaEq⟩, by decide⟩, normIdent_plain tableEq⟩, by decide⟩

/-- The rows of a batch are executed as they were written exactly where neither its source nor
a key or a string of its records has a question mark. -/
theorem executed_verbatim_iff {unicode : Unicode} {printer : JsonPrinter} {req : WriteRequest}
    {now : Instant} {template : Str}
    (given : handed unicode printer req now = .ok (some template)) :
    expand template = .ok template ↔
      '?' ∉ req.source ∧ '?' ∉ req.sourceEndpoint ∧ ∀ record ∈ req.records, asks record = false := by
  obtain ⟨some_row, schemaN, tableN, schemaEq, tableEq, rfl⟩ := statement_ok given
  have line (record : Json) :
      '?' ∈ printer.text (.object (row printer req now record)) ++ ['\n'] ↔
        '?' ∈ req.source ∨ '?' ∈ req.sourceEndpoint ∨ asks record = true := by
    rw [List.mem_append, printer.mem_text, asks_row, or_iff_left (by decide)]
  obtain ⟨first, others, shape⟩ := List.exists_cons_of_ne_nil
    (fun none => some_row (List.map_eq_nil_iff.mpr none))
  rw [expand_eq_self_iff, List.mem_append, or_iff_right (opening_plain schemaEq tableEq), linesOf,
    List.flatMap_map, List.mem_flatMap]
  constructor
  · intro unmarked
    have quiet (record : Json) (member : record ∈ req.records) :=
      not_or.mp (mt (line record).mpr (fun marked => unmarked ⟨record, member, marked⟩))
    have some_record : first ∈ req.records := shape ▸ List.mem_cons_self
    refine ⟨(quiet first some_record).1, (not_or.mp (quiet first some_record).2).1,
      fun record member => ?_⟩
    exact Bool.eq_false_iff.mpr (not_or.mp (quiet record member).2).2
  · rintro ⟨source, endpoint, records⟩ ⟨record, member, marked⟩
    rcases (line record).mp marked with fromSource | fromEndpoint | fromRecord
    · exact source fromSource
    · exact endpoint fromEndpoint
    · rw [records record member] at fromRecord
      cases fromRecord

/-- One note for a table of notes. -/
def noteRequest (note : Str) : WriteRequest where
  schema := "lake".str
  table := "notes".str
  tableMeta := ⟨[⟨"note".str, "text".str, true, false⟩], []⟩
  records := [.object [("note".str, .string note)]]
  source := "desk".str
  sourceEndpoint := "notes".str
  sourceRunId := ⟨['1'], List.forall_mem_singleton.mpr (by decide)⟩

/-- The first midnight of the century. -/
def midnight : Instant := ⟨"2001-01-01 00:00:00.000000".str, List.forall_iff_forall_mem.mp (by decide)⟩

/-- A note without a question mark is executed as it was written. -/
theorem plain_note_executed : ∃ template,
    handed Unicode.ascii JsonPrinter.plain (noteRequest "fine".str) midnight =
        .ok (some template) ∧ expand template = .ok template := by
  have given : handed Unicode.ascii JsonPrinter.plain (noteRequest "fine".str) midnight =
      .ok (some (opening "lake".str "notes".str ++
        body JsonPrinter.plain (noteRequest "fine".str) midnight)) := rfl
  refine ⟨_, given, (executed_verbatim_iff given).mpr ⟨by decide, by decide, ?_⟩⟩
  exact List.forall_mem_singleton.mpr rfl

/-- A note that asks is a valid record, and is not. -/
theorem asking_note_refused :
    ¬∀ (unicode : Unicode) (printer : JsonPrinter) (req : WriteRequest) (now : Instant)
      (template : Str), (∀ record ∈ req.records, validateOne req.tableMeta record = none) →
        handed unicode printer req now = .ok (some template) →
          expand template = .ok template := by
  intro all
  have valid : ∀ record ∈ (noteRequest "fine?".str).records,
      validateOne (noteRequest "fine?".str).tableMeta record = none :=
    List.forall_mem_singleton.mpr (by rfl)
  have same := all Unicode.ascii JsonPrinter.plain (noteRequest "fine?".str) midnight _ valid rfl
  exact (expand_eq_self_iff _).mp same (by decide +kernel)

end LumidPlatform.Write.JsonEachRow
