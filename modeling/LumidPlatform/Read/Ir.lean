import LumidPlatform.Error

/-!
# The backend-neutral query

The structured form of a bounded read-only `SELECT` that a read spec may carry.
Clause texts are kept as written, with binds still as `:name`. The verbatim copy
of the whole statement, which no lowering reads, is left out.
-/

namespace LumidPlatform.Read.Ir

/-- `schema.table` with an optional alias. -/
structure TableRef where
  schema : Option Str
  table : Str
  «alias» : Option Str
  deriving DecidableEq

namespace TableRef

/-- As the dialects write it after `FROM` and `JOIN`: the qualified name, then the alias. -/
def render (t : TableRef) : Str :=
  let name := match t.schema with
    | some schema => schema ++ '.' :: t.table
    | none => t.table
  match t.alias with
  | some a => name ++ ' ' :: a
  | none => name

end TableRef

/-- The joins of a bounded query. A join without a keyword before it is inner. -/
inductive JoinKind where
  | inner
  | left
  deriving DecidableEq

/-- The keywords that a lowering writes before the joined table. -/
def JoinKind.keyword : JoinKind → Str
  | inner => "JOIN".str
  | left => "LEFT JOIN".str

/-- One `JOIN`, with the text of its `ON` predicate. -/
structure Join where
  kind : JoinKind
  table : TableRef
  on : Str
  deriving DecidableEq

/-- A projected item, as text. -/
structure SelectItem where
  text : Str
  deriving DecidableEq

/-- The directions of an `ORDER BY`. -/
inductive SortDir where
  | asc
  | desc
  deriving DecidableEq

/-- A lowering always writes the direction out, the default one too. -/
def SortDir.keyword : SortDir → Str
  | asc => "ASC".str
  | desc => "DESC".str

/-- One key of the `ORDER BY`: an expression as text, which may be a bind, and its direction. -/
structure OrderItem where
  expr : Str
  dir : SortDir
  deriving DecidableEq

/-- A `LIMIT` is a bind or a number of its own; nothing else is read as one. -/
inductive Limit where
  | bind (name : Str)
  | lit (n : Int)
  deriving DecidableEq

/-- The comparisons of a filter. -/
inductive CmpOp where
  | eq
  | ne
  | lt
  | le
  | gt
  | ge
  deriving DecidableEq

/-- One spelling each: `<>` was read as the same comparison as `!=`, and is written so. -/
def CmpOp.sql : CmpOp → Str
  | eq => "=".str
  | ne => "!=".str
  | lt => "<".str
  | le => "<=".str
  | gt => ">".str
  | ge => ">=".str

/-- The type of a cast; a spelling outside the four is kept as written. -/
inductive IrType where
  | int8
  | float8
  | text
  | bool
  | other (spelling : Str)
  deriving DecidableEq

namespace IrType

/-- `IrType::parse`: the spellings of the four known types, in any case. Any other type is kept as
it is spelled, in lower case. -/
def parse (s : Str) : IrType :=
  let spelling := Text.toAsciiLowercase (Text.trim s)
  if spelling = "int8".str ∨ spelling = "bigint".str then int8
  else if spelling = "float8".str ∨ spelling = "double precision".str then float8
  else if spelling = "text".str ∨ spelling = "varchar".str then text
  else if spelling = "bool".str ∨ spelling = "boolean".str then bool
  else other spelling

/-- The type as a cast on Postgres writes it. -/
def pg : IrType → Str
  | int8 => "int8".str
  | float8 => "float8".str
  | text => "text".str
  | bool => "bool".str
  | other s => s

/-- The ClickHouse spelling, where there is one. -/
def ch : IrType → Option Str
  | int8 => some "Int64".str
  | float8 => some "Float64".str
  | text => some "String".str
  | bool => some "Bool".str
  | other _ => none

end IrType

/-- An expression of a filter. What the reader of the query does not know is kept as raw text, in
which binds may stand. -/
inductive Expr where
  | col (text : Str)
  | bind (name : Str)
  | lit (text : Str)
  | fn (name : Str) (args : List Expr)
  | cast (expr : Expr) (ty : IrType)
  | raw (text : Str)

/-! ## Equality of expressions -/

mutual

/-- Equality of expressions is decided part by part: an application holds a list of them, which no
instance can be derived for. -/
def Expr.beq : Expr → Expr → Bool
  | .col s, .col t => s == t
  | .bind s, .bind t => s == t
  | .lit s, .lit t => s == t
  | .fn name args, .fn name' args' => name == name' && Expr.beqAll args args'
  | .cast expr ty, .cast expr' ty' => Expr.beq expr expr' && ty == ty'
  | .raw s, .raw t => s == t
  | _, _ => false

/-- The same for lists of expressions. -/
def Expr.beqAll : List Expr → List Expr → Bool
  | [], [] => true
  | e :: rest, e' :: rest' => Expr.beq e e' && Expr.beqAll rest rest'
  | _, _ => false

end

mutual

/-- What the check accepts is equal, by induction on the first expression. -/
theorem Expr.eq_of_beq : ∀ {e e' : Expr}, Expr.beq e e' = true → e = e'
  | .col _, e', same | .bind _, e', same | .lit _, e', same | .raw _, e', same => by
    cases e' <;> simp_all [Expr.beq]
  | .fn name args, e', same => by
    cases e' with
    | fn name' args' =>
      simp only [Expr.beq, Bool.and_eq_true, beq_iff_eq] at same
      rw [same.1, Expr.eq_of_beqAll same.2]
    | col | bind | lit | cast | raw => simp [Expr.beq] at same
  | .cast expr ty, e', same => by
    cases e' with
    | cast expr' ty' =>
      simp only [Expr.beq, Bool.and_eq_true, beq_iff_eq] at same
      rw [Expr.eq_of_beq same.1, same.2]
    | col | bind | lit | fn | raw => simp [Expr.beq] at same

/-- The same for lists of expressions. -/
theorem Expr.eq_of_beqAll : ∀ {es es' : List Expr}, Expr.beqAll es es' = true → es = es'
  | [], es', same => by
    cases es' with
    | nil => rfl
    | cons => simp [Expr.beqAll] at same
  | e :: rest, es', same => by
    cases es' with
    | nil => simp [Expr.beqAll] at same
    | cons e' rest' =>
      simp only [Expr.beqAll, Bool.and_eq_true] at same
      rw [Expr.eq_of_beq same.1, Expr.eq_of_beqAll same.2]

end

mutual

/-- An expression passes the check against itself. -/
theorem Expr.beq_self : ∀ e : Expr, Expr.beq e e = true
  | .col _ | .bind _ | .lit _ | .raw _ => by simp [Expr.beq]
  | .fn name args => by simp [Expr.beq, Expr.beqAll_self args]
  | .cast expr ty => by simp [Expr.beq, Expr.beq_self expr]

/-- The same for lists of expressions. -/
theorem Expr.beqAll_self : ∀ es : List Expr, Expr.beqAll es es = true
  | [] => by simp [Expr.beqAll]
  | e :: rest => by simp [Expr.beqAll, Expr.beq_self e, Expr.beqAll_self rest]

end

instance : DecidableEq Expr := fun e e' =>
  decidable_of_iff (Expr.beq e e' = true) ⟨Expr.eq_of_beq, fun same => same ▸ Expr.beq_self e⟩

/-- A filter. The conjuncts of a `WHERE` are kept apart; inside one, a text that is not read as a
comparison, a list or a combination of these stays raw. -/
inductive Predicate where
  | compare (lhs : Expr) (op : CmpOp) (rhs : Expr)
  | inList (expr : Expr) (items : List Expr) (negated : Bool)
  | and (left right : Predicate)
  | or (left right : Predicate)
  | not (inner : Predicate)
  | raw (text : Str)
  deriving DecidableEq

/-- A normalised read-only `SELECT`; the conjuncts of `WHERE` are in order. -/
structure QueryIr where
  select : List SelectItem
  «from» : TableRef
  joins : List Join
  where_ : List Predicate
  groupBy : List Str
  orderBy : List OrderItem
  limit : Option Limit
  deriving DecidableEq

end LumidPlatform.Read.Ir
