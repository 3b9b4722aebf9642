import LumidPlatform.Ingest.Gate
import LumidPlatform.Lib.OffsetPages
import LumidPlatform.Read.Dialect
import LumidPlatform.Sync.Push

/-!
# Exporting a table

A page of a table is one statement with its limit and its offset as the first two parameters.
The statement is kept as its fragments, and its text is what they are written as. Postgres takes
the parameters by number. ClickHouse gets the text with a mark for each placeholder, and takes
the binds in the order of the marks. Each request finds the rows in an order of its own.
-/

namespace LumidPlatform.Export

open Read Ingest

/-- `ExportQuery`. -/
structure ExportQuery where
  offset : Option Int
  limit : Option Int
  status : Option Str
  after : Option Str

/-! ## Statements -/

/-- A piece of a statement: a text without parameters, or a parameter. -/
inductive Fragment where
  | text (s : Str)
  | placeholder (n : Nat)

/-- A fragment in a statement, with the form of its parameters. -/
def Fragment.written (mark : Nat → Str) : Fragment → Str
  | .text s => s
  | .placeholder n => mark n

/-- The number of a parameter. -/
def Fragment.number? : Fragment → Option Nat
  | .text _ => none
  | .placeholder n => some n

/-- A condition, with the number of its parameter. -/
inductive Condition where
  | status (n : Nat)
  | createdAt (n : Nat)

def Condition.fragments : Condition → List Fragment
  | .status n => [.text "status = ".str, .placeholder n]
  | .createdAt n => [.text "created_at > ".str, .placeholder n]

/-- `SELECT * FROM` a table, `WHERE` all the conditions hold. -/
structure Select where
  schema : Str
  table : Str
  conditions : List Condition

namespace Select

/-- A statement with conditions has an order. -/
def ordered (select : Select) : Bool := !select.conditions.isEmpty

/-- `where_sql`. -/
def whereSql (select : Select) : List Fragment :=
  if select.conditions.isEmpty then []
  else .text " WHERE ".str ::
    [.text " AND ".str].intercalate (select.conditions.map Condition.fragments)

/-- `order_sql`. -/
def orderSql (select : Select) : List Fragment :=
  if select.conditions.isEmpty then [] else [.text " ORDER BY created_at, msg_id".str]

/-- The first two parameters are the limit and the offset. -/
def fragments (select : Select) : List Fragment :=
  .text ("SELECT * FROM \"".str ++ select.schema ++ "\".\"".str ++ select.table ++ "\"".str) ::
    (select.whereSql ++ select.orderSql ++
      [.text " LIMIT ".str, .placeholder 1, .text " OFFSET ".str, .placeholder 2])

/-- The text of the statement. -/
def sql (select : Select) : Str :=
  select.fragments.flatMap (Fragment.written ('$' :: Text.showNat ·))

/-- The numbers of the parameters, in the order of the text. -/
def placeholders (select : Select) : List Nat := select.fragments.filterMap Fragment.number?

end Select

/-- `BoundQuery`, not lowered to a dialect. -/
structure BoundQuery where
  select : Select
  params : List BindValue
  binds : List BindValue

/-! ## Backends -/

/-- A table as an engine has it: its columns at the types that the statements use, its rows,
what the conditions and the order come to at a row, and the object a row is returned as. -/
structure Table (Row Key : Type) where
  has : Str → Bool
  rows : List Row
  statusIs : Row → Str → Bool
  createdAfter : Row → DateTime → Bool
  /-- `created_at, msg_id`. -/
  place : Row → Key
  object : Row → JsonMap

variable {Row Key : Type}

/-- What a condition tests, if the table and the value of its parameter allow. -/
def Table.test (table : Table Row Key) (values : Nat → Option BindValue) :
    Condition → Option (Row → Bool)
  | .status n =>
    match table.has "status".str, values n with
    | true, some (.text s) => some (table.statusIs · s)
    | _, _ => none
  | .createdAt n =>
    match table.has "created_at".str, values n with
    | true, some (.ts t) => some (table.createdAfter · t)
    | _, _ => none

/-- A parameter that counts rows. -/
def count (values : Nat → Option BindValue) (n : Nat) : Option Nat :=
  match values n with
  | some (.int i) => if 0 ≤ i then some i.toNat else none
  | _ => none

/-- The columns of the order are there. -/
def Table.sorts (table : Table Row Key) (select : Select) : Bool :=
  !select.ordered || (table.has "created_at".str && table.has "msg_id".str)

/-- Rows in the order of a statement, where it has one. -/
def Table.arranged [LinearOrder Key] (table : Table Row Key) (select : Select)
    (rows : List Row) : List Row :=
  if select.ordered then rows.insertionSort (fun a b => table.place a ≤ table.place b) else rows

/-- What a statement answers when its rows are found in some order. -/
def Table.answer [LinearOrder Key] (table : Table Row Key) (select : Select)
    (values : Nat → Option BindValue) (scan : List Row) : Option (List Row) := do
  let tests ← select.conditions.mapM (table.test values)
  guard (table.sorts select)
  let limit ← count values 1
  let offset ← count values 2
  return OffsetPages.page offset limit
    (table.arranged select (scan.filter fun row => tests.all (· row)))

/-- The parameters by their number. -/
def numbered (params : List BindValue) : Nat → Option BindValue
  | 0 => none
  | n + 1 => params[n]?

/-- The binds in the order of the marks. -/
def inOrder (placeholders : List Nat) (binds : List BindValue) (n : Nat) : Option BindValue :=
  (placeholders.idxOf? n).bind (binds[·]?)

/-- The statement that is sent to ClickHouse. -/
def BoundQuery.sent (q : BoundQuery) : Str := Dialect.pgPlaceholdersToCh q.select.sql

/-- The marks of a statement. -/
def marks (sent : Str) : Nat := sent.count '?'

/-- `query_rows` of both backends. A mark that is left without a value is an error. -/
def Table.queryRows [LinearOrder Key] (table : Table Row Key) (kind : BackendKind) (q : BoundQuery)
    (scan : List Row) : ApiResult (List Row) :=
  let answer := match kind with
    | .postgres => table.answer q.select (numbered q.params) scan
    | .clickHouse =>
      if marks q.sent = q.binds.length then
        table.answer q.select (inOrder q.select.placeholders q.binds) scan
      else none
  match answer with
  | some rows => .ok rows
  | none => .error (.internal "query".str)

/-! ## The handler -/

/-- What a request depends on beside its arguments. -/
structure Site (Row Key : Type) where
  crates : Crates
  /-- `DateTime::<Utc>::from_str`. -/
  parseDateTime : Str → Option DateTime
  /-- `Registry::get`. -/
  backendOf : Str → Str → ApiResult BackendKind
  /-- `table_meta` finds the table. -/
  known : BackendKind → Str → Str → ApiResult Bool
  table : BackendKind → Str → Str → Table Row Key

/-- The time an `after` stands for. -/
def Site.parseAfter (site : Site Row Key) (s : Str) : Option DateTime :=
  (site.parseDateTime s).or ((site.crates.parseDate s).map NaiveDate.midnight)

/-- Rows as newline-delimited JSON. -/
structure Page where
  lines : List Bytes

/-- The response with a page. -/
def Page.response (page : Page) : Response :=
  ⟨200, [("content-type".str, "application/x-ndjson".str)], page.lines.flatMap (· ++ [10])⟩

/-- The line of a row. -/
def Site.line (site : Site Row Key) (table : Table Row Key) (row : Row) : Bytes :=
  site.crates.toVec (Sync.stripServerSideCols (.object (table.object row)))

def limitOf (q : ExportQuery) : Int := max 1 (min (q.limit.getD 10000) 100000)

def offsetOf (q : ExportQuery) : Int := max (q.offset.getD 0) 0

/-- The conditions of a request; an `after` that cannot be read is none. -/
def conditionsOf (status : Option Str) (after : Option DateTime) : List Condition :=
  let (parts, nextParam) := if status.isSome then ([.status 3], 4) else ([], 3)
  if after.isSome then parts ++ [.createdAt nextParam] else parts

/-- The query of a request. -/
def Site.boundQuery (site : Site Row Key) (schemaN tableN : Str) (q : ExportQuery) : BoundQuery :=
  let after := q.after.bind site.parseAfter
  { select := ⟨schemaN, tableN, conditionsOf q.status after⟩
    params := [.int (limitOf q), .int (offsetOf q)] ++ q.status.toList.map .text ++
      after.toList.map .ts
    binds := [.int (limitOf q), .int (offsetOf q)] }

/-- `get_export`, where the statement finds the rows in some order. -/
def getExport [LinearOrder Key] (site : Site Row Key) (identity : Identity)
    (schema table : Str) (q : ExportQuery) (scan : List Row) : ApiResult Page := do
  requireAdmin identity
  match normIdent site.crates.unicode schema with
  | none => throw (.badRequest "invalid schema name".str)
  | some schemaN =>
    match normIdent site.crates.unicode table with
    | none => throw (.badRequest "invalid table name".str)
    | some tableN =>
      let kind ← site.backendOf schemaN tableN
      let found ← site.known kind schemaN tableN
      if found then
        let stored := site.table kind schemaN tableN
        let rows ← stored.queryRows kind (site.boundQuery schemaN tableN q) scan
        return ⟨rows.map (site.line stored)⟩
      else
        throw (.notFound ("unknown table: ".str ++ schemaN ++ '.' :: tableN))

end LumidPlatform.Export
