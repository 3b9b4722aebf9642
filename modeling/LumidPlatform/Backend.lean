import LumidPlatform.Text

/-!
# Storage engines

A table lives on one of two engines; the registry stores the engine's name, and reads any
other text as Postgres.
-/

namespace LumidPlatform

/-- Which storage engine a table lives on. -/
inductive BackendKind where
  | postgres
  | clickHouse
  deriving DecidableEq

namespace BackendKind

def asStr : BackendKind → Str
  | postgres => "postgres".str
  | clickHouse => "clickhouse".str

/-- `from_str_or_pg`. -/
def ofStrOrPg (s : Str) : BackendKind :=
  if Text.toAsciiLowercase (Text.trim s) = "clickhouse".str then clickHouse else postgres

theorem ofStrOrPg_asStr (kind : BackendKind) : ofStrOrPg kind.asStr = kind := by
  cases kind <;> decide

end BackendKind

end LumidPlatform
