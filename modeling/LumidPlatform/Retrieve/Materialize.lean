import LumidPlatform.Blobs.Store

/-!
# Materialized output

Rows and bytes are collected in one of three formats, and stored as one object that is
served back under `/blobs/`.
-/

namespace LumidPlatform.Retrieve

open LumidPlatform.Blobs

inductive OutputFormat where
  | csv
  | jsonl
  | raw
  deriving DecidableEq

namespace OutputFormat

/-- `from_str`. -/
def ofStr (s : Str) : Option OutputFormat :=
  if s = "csv".str then some csv
  else if s = "jsonl".str then some jsonl
  else if s = "raw".str then some raw
  else none

def extension : OutputFormat → Str
  | csv => "csv".str
  | jsonl => "jsonl".str
  | raw => "bin".str

def formatName : OutputFormat → Str
  | csv => "csv".str
  | jsonl => "jsonl".str
  | raw => "raw".str

def contentType : OutputFormat → Str
  | csv => "text/csv".str
  | jsonl => "application/x-ndjson".str
  | raw => "application/octet-stream".str

end OutputFormat

/-- A `BTreeMap<String, Value>`: its entries in key order. -/
abbrev Record := List (Str × Json)

/-- `BTreeMap::insert`. -/
def Record.insert (key : Str) (value : Json) : Record → Record
  | [] => [(key, value)]
  | (name, old) :: rest =>
    if name = key then (key, value) :: rest
    else if Text.le key name then (key, value) :: (name, old) :: rest
    else (name, old) :: Record.insert key value rest

/-- The output so far; the CSV header is written with the first row, which fixes the
columns. -/
structure Materializer where
  format : OutputFormat
  buf : Bytes := []
  csvFields : Option (List Str) := none

/-- `csv_escape`, of a value as it is printed. -/
def csvEscape (crates : Crates) (value : Json) : Str :=
  let s := match value with
    | .null => []
    | .bool b => Text.showBool b
    | .string s => s
    | other => Text.fromUtf8Lossy (crates.toVec other)
  if s.contains ',' || s.contains '"' || s.contains '\n' || s.contains '\r' then
    '"' :: s.flatMap (fun c => if c = '"' then ['"', '"'] else [c]) ++ ['"']
  else s

namespace Materializer

def new (format : OutputFormat) : Materializer := { format }

def csvLine (crates : Crates) (fields : List Str) (row : Record) : Bytes :=
  Text.utf8 (Text.join [',']
    (fields.map (fun field => csvEscape crates ((List.lookup field row).getD .null))) ++ ['\n'])

def writeRow (crates : Crates) (row : Record) (m : Materializer) : Materializer :=
  match m.format with
  | .jsonl => { m with buf := m.buf ++ crates.toVec (.object row) ++ Text.utf8 ['\n'] }
  | .csv =>
    match m.csvFields with
    | some fields => { m with buf := m.buf ++ csvLine crates fields row }
    | none =>
      let fields := row.map Prod.fst
      let header := Text.utf8 (Text.join [','] fields ++ ['\n'])
      { m with
        buf := m.buf ++ header ++ csvLine crates fields row
        csvFields := some fields }
  | .raw => m

def writeRawBytes (bytes : Bytes) (m : Materializer) : Materializer :=
  { m with buf := m.buf ++ bytes }

end Materializer

/-- `write_to_store`: the address of the object, and the object. -/
def writeToStore (store : ObjectStore) (key : Str) (bytes : Bytes) (contentType : Str) :
    ApiResult (Str × Object) :=
  match store.putWithOptionalAttrs (store.path key) bytes contentType with
  | .ok object => .ok ("/blobs/".str ++ key, object)
  | .error error => .error (.internal ("object store write failed: ".str ++ error.text))

end LumidPlatform.Retrieve
