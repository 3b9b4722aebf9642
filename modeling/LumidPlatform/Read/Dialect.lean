import Mathlib.Data.List.TakeWhile
import LumidPlatform.Read.Ir

/-!
# Lowering a query to executable SQL

A lowering walks the query text once, copies what is no bind and replaces each
`:name` by a placeholder, collecting the values in placeholder order. The walk is
the same for both dialects up to the placeholder. `pieces` is the text cut at its
binds, and a lowering is a fold over the pieces; so which binds a text has, and
what is copied, is a matter of the text alone.
-/

namespace LumidPlatform.Read

/-- A coerced value, as it is handed to a backend. -/
inductive BindValue where
  | text (s : Str)
  | int (i : Int)
  | float (f : F64)
  | date (d : NaiveDate)
  | ts (t : DateTime)
  | bool (b : Bool)
  deriving DecidableEq

/-- `BindValue::canon`: the text of a value in a cache key. -/
def BindValue.canon (crates : Crates) : BindValue → Str
  | text s => s
  | int i => Text.showInt i
  | float f => f.toText
  | date d => crates.showDate d
  | ts t => crates.showRfc3339 t
  | bool b => Text.showBool b

namespace Dialect

open LumidPlatform.Read.Ir

/-- Executable SQL and the bind values in placeholder order. -/
structure BoundSql where
  sql : Str
  values : List BindValue
  deriving DecidableEq

/-- The characters that the name of a bind may begin with. -/
def isIdentStart (c : Char) : Bool := Text.isAsciiAlphabetic c || c == '_'

/-- The characters that it may go on with. -/
def isIdent (c : Char) : Bool := Text.isAsciiAlphanumeric c || c == '_'

/-- The name of the bind that begins after a colon which follows no colon. -/
def bindAfterColon (rest : Str) : Option Str :=
  match rest with
  | next :: _ => if next ≠ ':' ∧ isIdentStart next then some (rest.takeWhile isIdent) else none
  | [] => none

/-- The name of the bind that begins at a position, given whether a colon precedes. -/
def bindAt (prevColon : Bool) (c : Char) (rest : Str) : Option Str :=
  if c = ':' ∧ prevColon = false then bindAfterColon rest else none

/-- The error of a bind that has no value. -/
def unresolved (name : Str) : ApiError :=
  .internal ("bind ':".str ++ name ++ "' has no resolved value".str)

/-- The loop both dialects share. `skipped` counts the characters left of a bind
that has been lowered; `out` and `ordered` are what the loop has built. -/
def lowerScan (placeholder : Nat → BindValue → Str) (values : HashMap BindValue)
    (prevColon : Bool) (skipped : Nat) (out : Str) (ordered : List BindValue) :
    Str → ApiResult (Str × List BindValue)
  | [] => .ok (out, ordered)
  | c :: rest =>
    match skipped with
    | left + 1 => lowerScan placeholder values (c == ':') left out ordered rest
    | 0 =>
      match bindAt prevColon c rest with
      | some name =>
        match values.lookup name with
        | some v =>
          lowerScan placeholder values true name.length
            (out ++ placeholder (ordered.length + 1) v) (ordered ++ [v]) rest
        | none => .error (unresolved name)
      | none => lowerScan placeholder values (c == ':') 0 (out ++ Text.pushBytes c) ordered rest

/-- `$N`, with a cast that lets one Rust width match any numeric column. -/
def pgPlaceholder (n : Nat) (v : BindValue) : Str :=
  '$' :: Text.showNat n ++
    match v with
    | .int _ => "::int8".str
    | .float _ => "::float8".str
    | _ => []

/-- `PostgresDialect::lower_binds`. -/
def lowerBinds (sql : Str) (values : HashMap BindValue) : ApiResult BoundSql :=
  (lowerScan pgPlaceholder values false 0 [] [] sql).map (fun out => ⟨out.1, out.2⟩)

/-! ## The text cut at its binds -/

/-- A character that is copied, or a bind. -/
inductive Piece where
  | char (c : Char)
  | bind (name : Str)
  deriving DecidableEq

/-- The scan for binds, with the characters of a name that are still to be passed over, and whether
the last one was a colon: a cast is no bind. -/
def piecesFrom (prevColon : Bool) (skipped : Nat) : Str → List Piece
  | [] => []
  | c :: rest =>
    match skipped with
    | left + 1 => piecesFrom (c == ':') left rest
    | 0 =>
      match bindAt prevColon c rest with
      | some name => .bind name :: piecesFrom true name.length rest
      | none => .char c :: piecesFrom (c == ':') 0 rest

/-- The names among pieces. -/
def pieceNames : List Piece → List Str
  | [] => []
  | .char _ :: rest => pieceNames rest
  | .bind name :: rest => name :: pieceNames rest

/-- The pieces of a query text, in order. -/
def pieces (sql : Str) : List Piece := piecesFrom false 0 sql

/-- The binds of a query text, one entry an occurrence. -/
def bindNames (sql : Str) : List Str := pieceNames (pieces sql)

/-- Lowering, piece by piece. -/
def lowerPieces (placeholder : Nat → BindValue → Str) (values : HashMap BindValue)
    (out : Str) (ordered : List BindValue) : List Piece → ApiResult (Str × List BindValue)
  | [] => .ok (out, ordered)
  | .char c :: rest => lowerPieces placeholder values (out ++ Text.pushBytes c) ordered rest
  | .bind name :: rest =>
    match values.lookup name with
    | some v =>
      lowerPieces placeholder values (out ++ placeholder (ordered.length + 1) v) (ordered ++ [v])
        rest
    | none => .error (unresolved name)

/-- The loop does to a text what the fold does to its pieces. -/
theorem lowerScan_eq_lowerPieces (placeholder : Nat → BindValue → Str)
    (values : HashMap BindValue) (prevColon : Bool) (skipped : Nat) (out : Str)
    (ordered : List BindValue) (sql : Str) :
    lowerScan placeholder values prevColon skipped out ordered sql =
      lowerPieces placeholder values out ordered (piecesFrom prevColon skipped sql) := by
  induction sql generalizing prevColon skipped out ordered with
  | nil => simp only [lowerScan, piecesFrom, lowerPieces]
  | cons c rest inductionHypothesis =>
    cases skipped with
    | succ left => simp only [lowerScan, piecesFrom, inductionHypothesis]
    | zero =>
      cases found : bindAt prevColon c rest with
      | none => simp only [lowerScan, piecesFrom, found, lowerPieces, inductionHypothesis]
      | some name =>
        cases resolved : values.lookup name with
        | none => simp only [lowerScan, piecesFrom, found, lowerPieces, resolved]
        | some v =>
          simp only [lowerScan, piecesFrom, found, lowerPieces, resolved, inductionHypothesis]

/-- A lowering that succeeds binds, at the k-th placeholder, the value of the k-th
bind occurrence. -/
theorem lowerPieces_values {placeholder : Nat → BindValue → Str} {values : HashMap BindValue}
    {out : Str} {ordered : List BindValue} {ps : List Piece} {result : Str × List BindValue}
    (lowered : lowerPieces placeholder values out ordered ps = .ok result) :
    result.2.map some = ordered.map some ++ (pieceNames ps).map values.lookup := by
  induction ps generalizing out ordered with
  | nil =>
    obtain rfl : (out, ordered) = result := by simpa [lowerPieces] using lowered
    simp [pieceNames]
  | cons piece rest inductionHypothesis =>
    cases piece with
    | char c => exact inductionHypothesis lowered
    | bind name =>
      cases resolved : values.lookup name with
      | none => simp [lowerPieces, resolved] at lowered
      | some v =>
        have tail := inductionHypothesis (by simpa only [lowerPieces, resolved] using lowered)
        simp only [tail, pieceNames, List.map_append, List.map_cons, List.map_nil, resolved,
          List.append_assoc, List.singleton_append]

/-- A lowering succeeds when every bind of the text is resolved. -/
theorem lowerPieces_isOk (placeholder : Nat → BindValue → Str) {values : HashMap BindValue}
    {ps : List Piece} (resolved : ∀ name ∈ pieceNames ps, (values.lookup name).isSome = true)
    (out : Str) (ordered : List BindValue) :
    ∃ result, lowerPieces placeholder values out ordered ps = .ok result := by
  induction ps generalizing out ordered with
  | nil => exact ⟨_, rfl⟩
  | cons piece rest inductionHypothesis =>
    cases piece with
    | char c => exact inductionHypothesis resolved _ _
    | bind name =>
      obtain ⟨v, found⟩ := Option.isSome_iff_exists.mp (resolved name (by simp [pieceNames]))
      simp only [lowerPieces, found]
      exact inductionHypothesis (fun other member => resolved other (by simp [pieceNames, member]))
        _ _

/-- Where every bind has a value the lowering succeeds. -/
theorem lowerBinds_isOk {sql : Str} {values : HashMap BindValue}
    (resolved : ∀ name ∈ bindNames sql, (values.lookup name).isSome = true) :
    ∃ bound, lowerBinds sql values = .ok bound := by
  obtain ⟨result, lowered⟩ := lowerPieces_isOk pgPlaceholder resolved [] []
  refine ⟨⟨result.1, result.2⟩, ?_⟩
  rw [lowerBinds, lowerScan_eq_lowerPieces]
  simp only [pieces] at lowered
  rw [lowered]
  rfl

/-- Its values are those of the binds, one an occurrence. -/
theorem lowerBinds_values {sql : Str} {values : HashMap BindValue} {bound : BoundSql}
    (lowered : lowerBinds sql values = .ok bound) :
    bound.values.map some = (bindNames sql).map values.lookup := by
  rw [lowerBinds, lowerScan_eq_lowerPieces] at lowered
  cases walked : lowerPieces pgPlaceholder values [] [] (piecesFrom false 0 sql) with
  | error e => simp [walked, Except.map] at lowered
  | ok result =>
    obtain rfl : (⟨result.1, result.2⟩ : BoundSql) = bound := by
      simpa [walked, Except.map] using lowered
    simpa [bindNames, pieces] using lowerPieces_values walked

/-! ## Where a text has a bind -/

/-- A text that a bind can have as its name. -/
structure BindName (name : Str) : Prop where
  start : ∃ first rest, name = first :: rest ∧ isIdentStart first = true
  ident : ∀ c ∈ name, isIdent c = true

/-- A whole occurrence of a bind: a colon that follows no colon, the name, and no
further identifier character. `prevColon` tells whether a colon precedes the text. -/
def WholeBind (prevColon : Bool) (name sql : Str) : Prop :=
  ∃ before after, sql = before ++ ':' :: (name ++ after) ∧
    before.getLast?.all (· ≠ ':') = true ∧ (before = [] → prevColon = false) ∧
    after.head?.all (fun c => !isIdent c) = true

/-- A name may go on with what it may begin with. -/
theorem isIdent_of_start {c : Char} (start : isIdentStart c = true) : isIdent c = true := by
  simp only [isIdentStart, Bool.or_eq_true] at start
  simp only [isIdent, Text.isAsciiAlphanumeric, Bool.or_eq_true]
  rcases start with letter | underscore
  · exact Or.inl (Or.inl letter)
  · exact Or.inr underscore

/-- An occurrence begins at the first character or lies in the rest. -/
theorem wholeBind_cons_iff {prevColon : Bool} {name rest : Str} {c : Char} :
    WholeBind prevColon name (c :: rest) ↔
      (c = ':' ∧ prevColon = false ∧ ∃ after, rest = name ++ after ∧
        after.head?.all (fun c => !isIdent c) = true) ∨ WholeBind (c == ':') name rest := by
  constructor
  · rintro ⟨before, after, text, preceding, first, boundary⟩
    cases before with
    | nil =>
      obtain ⟨rfl, rfl⟩ : c = ':' ∧ rest = name ++ after := by simpa using text
      exact Or.inl ⟨rfl, first rfl, after, rfl, boundary⟩
    | cons head front =>
      obtain ⟨rfl, rfl⟩ : c = head ∧ rest = front ++ ':' :: (name ++ after) := by simpa using text
      refine Or.inr ⟨front, after, rfl, ?_, ?_, boundary⟩
      · cases front with
        | nil => rfl
        | cons second others => simpa using preceding
      · rintro rfl
        simpa using preceding
  · rintro (⟨rfl, first, after, rfl, boundary⟩ | ⟨before, after, rfl, preceding, first, boundary⟩)
    · exact ⟨[], after, rfl, rfl, fun _ => first, boundary⟩
    · refine ⟨c :: before, after, rfl, ?_, by simp, boundary⟩
      cases before with
      | nil => simpa using first rfl
      | cons second others => simpa using preceding

/-- After a colon the lexed name is the given one exactly when the text goes on with
it and then with no identifier character. -/
theorem bindAfterColon_eq_some_iff {name rest : Str} (bindName : BindName name) :
    bindAfterColon rest = some name ↔
      ∃ after, rest = name ++ after ∧ after.head?.all (fun c => !isIdent c) = true := by
  obtain ⟨first, others, rfl, start⟩ := bindName.start
  constructor
  · intro lexed
    cases rest with
    | nil => simp [bindAfterColon] at lexed
    | cons c tail =>
      simp only [bindAfterColon] at lexed
      split_ifs at lexed with begins
      have taken := Option.some.inj lexed
      refine ⟨(c :: tail).dropWhile isIdent, ?_, ?_⟩
      · rw [← taken, List.takeWhile_append_dropWhile]
      · cases dropped : (c :: tail).dropWhile isIdent with
        | nil => rfl
        | cons d _ =>
          have stops := List.head?_dropWhile_not isIdent (c :: tail)
          rw [dropped] at stops
          simpa using stops
  · rintro ⟨after, rfl, boundary⟩
    have colon : first ≠ ':' := by
      rintro rfl
      exact absurd start (by decide)
    have name : (first :: others ++ after).takeWhile isIdent = first :: others := by
      rw [List.takeWhile_append_of_pos bindName.ident]
      cases after with
      | nil => simp
      | cons d tail =>
        have stops : isIdent d = false := by simpa using boundary
        simp [stops]
    simp only [List.cons_append] at name
    simp only [List.cons_append, bindAfterColon, name]
    rw [if_pos ⟨colon, start⟩]

/-- The lexed names are the whole occurrences. The characters still to be skipped are
those of a name, so no occurrence begins among them. -/
theorem mem_pieceNames_iff {name : Str} (bindName : BindName name) (prevColon : Bool)
    (skipped : Nat) {sql : Str} (skipsName : ∀ c ∈ sql.take skipped, isIdent c = true) :
    name ∈ pieceNames (piecesFrom prevColon skipped sql) ↔ WholeBind prevColon name sql := by
  induction sql generalizing prevColon skipped with
  | nil =>
    constructor
    · simp [piecesFrom, pieceNames]
    · rintro ⟨before, after, text, -⟩
      simp at text
  | cons c rest inductionHypothesis =>
    rw [wholeBind_cons_iff]
    cases skipped with
    | succ left =>
      have notColon : c ≠ ':' := by
        rintro rfl
        exact absurd (skipsName ':' (by simp)) (by decide)
      have tail := inductionHypothesis (c == ':') left
        (fun d member => skipsName d (by simp [member]))
      simp only [piecesFrom, tail, notColon, false_and, false_or]
    | zero =>
      have here : bindAt prevColon c rest = some name ↔
          (c = ':' ∧ prevColon = false ∧ ∃ after, rest = name ++ after ∧
            after.head?.all (fun c => !isIdent c) = true) := by
        rw [← bindAfterColon_eq_some_iff bindName, bindAt]
        by_cases colon : c = ':' ∧ prevColon = false
        · simp [colon]
        · simp only [if_neg colon, reduceCtorEq, false_iff]
          exact fun both => colon ⟨both.1, both.2.1⟩
      rw [← here]
      cases found : bindAt prevColon c rest with
      | none =>
        have tail := inductionHypothesis (c == ':') 0 (by simp)
        simp only [piecesFrom, found, pieceNames, reduceCtorEq, false_or]
        exact tail
      | some lexed =>
        have colon : c = ':' ∧ bindAfterColon rest = some lexed := by
          simp only [bindAt] at found
          split_ifs at found with start
          exact ⟨start.1, found⟩
        have isName : lexed = rest.takeWhile isIdent := by
          have after := colon.2
          cases rest with
          | nil => simp [bindAfterColon] at after
          | cons d tail =>
            simp only [bindAfterColon] at after
            split_ifs at after
            exact (Option.some.inj after).symm
        have skips : ∀ d ∈ rest.take lexed.length, isIdent d = true := by
          intro d member
          have prefixed : rest.take lexed.length = rest.takeWhile isIdent := by
            rw [isName]
            exact (List.prefix_iff_eq_take.mp (List.takeWhile_prefix isIdent)).symm
          exact List.mem_takeWhile_imp (prefixed ▸ member)
        have tail := inductionHypothesis true lexed.length skips
        have same : (c == ':') = true := by simp [colon.1]
        simp only [piecesFrom, found, pieceNames, List.mem_cons, same, Option.some.injEq]
        rw [← tail, eq_comm]

/-- A text binds a name exactly when it has a whole occurrence of it. -/
theorem mem_bindNames_iff {name sql : Str} (bindName : BindName name) :
    name ∈ bindNames sql ↔ WholeBind false name sql :=
  mem_pieceNames_iff bindName false 0 (by simp)

/-! ## What the SQL text depends on -/

/-- The variant of a value. -/
inductive ValueKind where
  | text
  | int
  | float
  | date
  | ts
  | bool
  deriving DecidableEq

/-- The kind of a value, which decides how its placeholder is written. -/
def valueKind : BindValue → ValueKind
  | .text _ => .text
  | .int _ => .int
  | .float _ => .float
  | .date _ => .date
  | .ts _ => .ts
  | .bool _ => .bool

/-- A placeholder shows its number and the variant of its value, nothing else. -/
theorem pgPlaceholder_of_valueKind {n : Nat} {v w : BindValue} (same : valueKind v = valueKind w) :
    pgPlaceholder n v = pgPlaceholder n w := by
  cases v <;> cases w <;> first | rfl | simp [valueKind] at same

/-- Two maps that resolve every name both have to values of one variant lower a
text to the same SQL. -/
theorem lowerPieces_sql {values values' : HashMap BindValue}
    (agree : ∀ name v w, values.lookup name = some v → values'.lookup name = some w →
      valueKind v = valueKind w)
    {out : Str} {ordered ordered' : List BindValue} (counted : ordered.length = ordered'.length)
    {ps : List Piece} {result result' : Str × List BindValue}
    (lowered : lowerPieces pgPlaceholder values out ordered ps = .ok result)
    (lowered' : lowerPieces pgPlaceholder values' out ordered' ps = .ok result') :
    result.1 = result'.1 := by
  induction ps generalizing out ordered ordered' with
  | nil =>
    obtain rfl : (out, ordered) = result := by simpa [lowerPieces] using lowered
    obtain rfl : (out, ordered') = result' := by simpa [lowerPieces] using lowered'
    rfl
  | cons piece rest inductionHypothesis =>
    cases piece with
    | char c => exact inductionHypothesis counted lowered lowered'
    | bind name =>
      cases resolved : values.lookup name with
      | none => simp [lowerPieces, resolved] at lowered
      | some v =>
        cases resolved' : values'.lookup name with
        | none => simp [lowerPieces, resolved'] at lowered'
        | some w =>
          have shown := pgPlaceholder_of_valueKind (n := ordered.length + 1)
            (agree name v w resolved resolved')
          simp only [lowerPieces, resolved] at lowered
          simp only [lowerPieces, resolved', ← counted, ← shown] at lowered'
          exact inductionHypothesis (by simp [counted]) lowered lowered'

/-- The text of a lowered query depends on the kinds of the values only. -/
theorem lowerBinds_sql {sql : Str} {values values' : HashMap BindValue}
    (agree : ∀ name v w, values.lookup name = some v → values'.lookup name = some w →
      valueKind v = valueKind w)
    {bound bound' : BoundSql} (lowered : lowerBinds sql values = .ok bound)
    (lowered' : lowerBinds sql values' = .ok bound') : bound.sql = bound'.sql := by
  rw [lowerBinds, lowerScan_eq_lowerPieces] at lowered lowered'
  cases walked : lowerPieces pgPlaceholder values [] [] (piecesFrom false 0 sql) with
  | error e => simp [walked, Except.map] at lowered
  | ok result =>
    cases walked' : lowerPieces pgPlaceholder values' [] [] (piecesFrom false 0 sql) with
    | error e => simp [walked', Except.map] at lowered'
    | ok result' =>
      obtain rfl : (⟨result.1, result.2⟩ : BoundSql) = bound := by
        simpa [walked, Except.map] using lowered
      obtain rfl : (⟨result'.1, result'.2⟩ : BoundSql) = bound' := by
        simpa [walked', Except.map] using lowered'
      exact lowerPieces_sql agree rfl walked walked'

/-! ## ClickHouse -/

/-- `FINAL` after the table, and the columns of the sort key. -/
structure ClickHouseDialect where
  «final_» : Bool
  orderKeyCols : List Str

/-- Rendering with the values pushed so far. -/
abbrev Render (T : Type) := StateT (List BindValue) (Except ApiError) T

namespace ClickHouseDialect

/-- `lower_text_binds`: verbatim text with its binds as `?`. -/
def lowerTextBinds (values : HashMap BindValue) (text : Str) : Render Str :=
  fun ordered => lowerScan (fun _ _ => ['?']) values false 0 [] ordered text

/-- One named bind outside a text. -/
def pushBind (values : HashMap BindValue) (name : Str) : Render Str :=
  fun ordered =>
    match values.lookup name with
    | some v => .ok (['?'], ordered ++ [v])
    | none => .error (unresolved name)

mutual

/-- `render_expr`: binds are pushed as they are met, from left to right. -/
def renderExpr (crates : Crates) (values : HashMap BindValue) : Expr → Render Str
  | .col c => pure c
  | .lit l => pure l
  | .bind name => pushBind values name
  | .fn name args => do
    let a ← renderExprs crates values args
    pure (name ++ '(' :: Text.join ", ".str a ++ [')'])
  | .cast expr ty => do
    let inner ← renderExpr crates values expr
    match ty.ch with
    | some chTy => pure ("CAST(".str ++ inner ++ " AS ".str ++ chTy ++ [')'])
    | none =>
      throw (.internal ("ClickHouse lowerer cannot express cast to ".str ++
        crates.unicode.debug ty.pg))
  | .raw t => lowerTextBinds values t

/-- The arguments of a function, in turn. -/
def renderExprs (crates : Crates) (values : HashMap BindValue) : List Expr → Render (List Str)
  | [] => pure []
  | e :: rest => do
    let shown ← renderExpr crates values e
    let others ← renderExprs crates values rest
    pure (shown :: others)

end

/-- `render_predicate`: combinations are always bracketed. -/
def renderPredicate (crates : Crates) (values : HashMap BindValue) : Predicate → Render Str
  | .compare lhs op rhs => do
    let l ← renderExpr crates values lhs
    let r ← renderExpr crates values rhs
    pure (l ++ ' ' :: op.sql ++ ' ' :: r)
  | .inList expr items negated => do
    let e ← renderExpr crates values expr
    let its ← renderExprs crates values items
    let kw := if negated then "NOT IN".str else "IN".str
    pure (e ++ ' ' :: kw ++ " (".str ++ Text.join ", ".str its ++ [')'])
  | .and a b => do
    let l ← renderPredicate crates values a
    let r ← renderPredicate crates values b
    pure ('(' :: l ++ " AND ".str ++ r ++ [')'])
  | .or a b => do
    let l ← renderPredicate crates values a
    let r ← renderPredicate crates values b
    pure ('(' :: l ++ " OR ".str ++ r ++ [')'])
  | .not a => do
    let inner ← renderPredicate crates values a
    pure ("NOT (".str ++ inner ++ [')'])
  | .raw t => lowerTextBinds values t

/-- The conjuncts of a clause, in turn. -/
def renderConjuncts (crates : Crates) (values : HashMap BindValue) (conj : List Predicate) :
    Render Str := do
  let parts ← conj.mapM (renderPredicate crates values)
  pure (Text.join " AND ".str parts)

/-- A projected item, with its binds lowered. -/
def renderSelectItem (values : HashMap BindValue) (item : SelectItem) : Render Str :=
  lowerTextBinds values item.text

/-- `render_join`: only the condition is lowered. -/
def renderJoin (values : HashMap BindValue) (j : Join) : Render Str := do
  let on ← lowerTextBinds values j.on
  pure (j.kind.keyword ++ ' ' :: j.table.render ++ " ON ".str ++ on)

/-- An order key is copied. -/
def renderOrder (o : OrderItem) : Str := o.expr ++ ' ' :: o.dir.keyword

/-- A column reference matches by its full text or by its unqualified tail. -/
def exprIsCol (e : Expr) (col : Str) : Bool :=
  match e with
  | .col c => c == col || Text.afterLast '.' c == col
  | _ => false

/-- A comparison of the leading order key may be hoisted into the `PREWHERE`. -/
def touchesLeadingKey (p : Predicate) (lead : Str) : Bool :=
  match p with
  | .compare lhs _ _ => exprIsCol lhs lead
  | _ => false

/-- The conjuncts that move to `PREWHERE`, and those that stay. -/
def splitPrewhere (dialect : ClickHouseDialect) (conj : List Predicate) :
    List Predicate × List Predicate :=
  match dialect.orderKeyCols with
  | [] => ([], conj)
  | lead :: _ => conj.partition (touchesLeadingKey · lead)

/-- The conjuncts before and after the split are the same ones. -/
theorem mem_splitPrewhere (dialect : ClickHouseDialect) {conj : List Predicate} {p : Predicate} :
    p ∈ conj ↔ p ∈ (dialect.splitPrewhere conj).1 ∨ p ∈ (dialect.splitPrewhere conj).2 := by
  rw [splitPrewhere]
  split
  · simp
  · exact List.mem_partition

/-- `render_limit`. -/
def renderLimit (values : HashMap BindValue) : Limit → Render Str
  | .lit n => pure (Text.showInt n)
  | .bind name => pushBind values name

/-- A keyword and a list of conjuncts, or nothing when there is none. -/
def renderClause (crates : Crates) (values : HashMap BindValue) (keyword : Str)
    (conj : List Predicate) :
    Render Str :=
  if conj.isEmpty then pure []
  else do
    let shown ← renderConjuncts crates values conj
    pure (keyword ++ shown)

/-- `render_query`: the clauses in the order in which they are written, so that the values follow
their marks. -/
def renderQuery (crates : Crates) (dialect : ClickHouseDialect) (ir : QueryIr)
    (values : HashMap BindValue) :
    Render Str := do
  let items ← ir.select.mapM (renderSelectItem values)
  let joins ← ir.joins.mapM (renderJoin values)
  let hoisted := dialect.splitPrewhere ir.where_
  let prewhere ← renderClause crates values " PREWHERE ".str hoisted.1
  let where_ ← renderClause crates values " WHERE ".str hoisted.2
  let limit ← match ir.limit with
    | some lim => do
      let shown ← renderLimit values lim
      pure (" LIMIT ".str ++ shown)
    | none => pure []
  let groupBy := if ir.groupBy.isEmpty then []
    else " GROUP BY ".str ++ Text.join ", ".str ir.groupBy
  let orderBy := if ir.orderBy.isEmpty then []
    else " ORDER BY ".str ++ Text.join ", ".str (ir.orderBy.map renderOrder)
  pure ("SELECT ".str ++ Text.join ", ".str items ++ " FROM ".str ++ ir.from.render ++
    (if dialect.final_ then " FINAL".str else []) ++ (joins.map (' ' :: ·)).flatten ++
    prewhere ++ where_ ++ groupBy ++ orderBy ++ limit)

/-- `lower_ir`. -/
def lowerIr (crates : Crates) (dialect : ClickHouseDialect) (ir : QueryIr)
    (values : HashMap BindValue) : ApiResult BoundSql :=
  (renderQuery crates dialect ir values []).map (fun out => ⟨out.1, out.2⟩)

end ClickHouseDialect

/-- How many characters of a placeholder, with its cast, follow the dollar sign. -/
def pgPlaceholderLength (rest : Str) : Option Nat :=
  let digits := rest.takeWhile Text.isAsciiDigit
  if digits.isEmpty then none
  else
    let after := rest.drop digits.length
    let cast := if Text.startsWith after "::int8".str then 6
      else if Text.startsWith after "::float8".str then 8
      else 0
    some (digits.length + cast)

/-- The rewriting of placeholders, with the characters of one that are still to be passed over. -/
def pgPlaceholdersToChFrom : Nat → Str → Str
  | _, [] => []
  | left + 1, _ :: rest => pgPlaceholdersToChFrom left rest
  | 0, c :: rest =>
    match (if c = '$' then pgPlaceholderLength rest else none) with
    | some length => '?' :: pgPlaceholdersToChFrom length rest
    | none => Text.pushBytes c ++ pgPlaceholdersToChFrom 0 rest

/-- `pg_placeholders_to_ch`: `$N` placeholders in `?` form. -/
def pgPlaceholdersToCh (sql : Str) : Str := pgPlaceholdersToChFrom 0 sql

/-- `ClickHouseDialect::lower`: from the parsed query, or by translating the
Postgres placeholders where there is none. -/
def ClickHouseDialect.lower (crates : Crates) (dialect : ClickHouseDialect) (substituted : Str)
    (values : HashMap BindValue) : Option QueryIr → ApiResult BoundSql
  | some ir => dialect.lowerIr crates ir values
  | none => (lowerBinds substituted values).map (fun pg => ⟨pgPlaceholdersToCh pg.sql, pg.values⟩)

end Dialect

end LumidPlatform.Read
