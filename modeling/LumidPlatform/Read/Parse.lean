import LumidPlatform.Numbers
import LumidPlatform.Read.Ir

/-!
# The reader of SELECT statements

The text of a read spec is cut into clauses at the keywords it has outside parentheses, and
each clause into its items, each by a scan of its own. A text outside the grammar falls back.
Some scans take a slice at every byte: a character of several bytes makes them panic.
-/

namespace LumidPlatform.Read.Parse

open LumidPlatform.Read.Ir

/-- The outcome of a step of the reader. -/
inductive Attempt (T : Type) where
  | found (value : T)
  | refused
  | panicked
  deriving DecidableEq

namespace Attempt

variable {T U : Type}

def bind (attempt : Attempt T) (next : T → Attempt U) : Attempt U :=
  match attempt with
  | found value => next value
  | refused => refused
  | panicked => panicked

instance : Monad Attempt where
  pure := found
  bind := bind

def ofOption : Option T → Attempt T
  | some value => found value
  | none => refused

/-- `Option::or_else`. -/
def orElse (attempt : Attempt T) (other : Attempt T) : Attempt T :=
  match attempt with
  | refused => other
  | decided => decided

end Attempt

/-! ## Small lexical helpers -/

/-- The depth of parentheses after a character. -/
def deeper (depth : Int) (c : Char) : Int :=
  if c = '(' then depth + 1 else if c = ')' then depth - 1 else depth

/-- `is_ident`. -/
def isIdent : Str → Bool
  | [] => false
  | c :: rest => (Text.isAsciiAlphabetic c || c == '_') &&
      (c :: rest).all (fun d => Text.isAsciiAlphanumeric d || d == '_')

/-- `is_dotted_ident`. -/
def isDottedIdent (s : Str) : Bool := !s.isEmpty && (s.splitOn '.').all isIdent

/-- `find_top`: where a needle begins outside parentheses and single quotes. -/
def findTopFrom (needle : Str) (depth : Int) (inStr : Bool) : Str → Attempt Nat
  | [] => .refused
  | c :: rest => do
    if inStr then
      let pos ← findTopFrom needle depth (c != '\'') rest
      pure (pos + 1)
    else if deeper depth c = 0 && Text.startsWith (c :: rest) needle then pure 0
    else if deeper depth c = 0 && !Text.isAscii c &&
        needle.length ≤ Text.byteLen (c :: rest) - 1 then .panicked
    else
      let pos ← findTopFrom needle (deeper depth c) (c == '\'') rest
      pure (pos + 1)

def findTop (hay needle : Str) : Attempt Nat := findTopFrom needle 0 false hay

/-- `matching_paren`, from behind the opening one: where the closing one is. -/
def matchingParenFrom (depth : Int) (inStr : Bool) : Str → Option Nat
  | [] => none
  | c :: rest =>
    if c = '\'' then (matchingParenFrom depth (!inStr) rest).map (· + 1)
    else if c = '(' && !inStr then (matchingParenFrom (depth + 1) inStr rest).map (· + 1)
    else if c = ')' && !inStr then
      if depth - 1 = 0 then some 0
      else (matchingParenFrom (depth - 1) inStr rest).map (· + 1)
    else (matchingParenFrom depth inStr rest).map (· + 1)

/-- `matching_paren`. -/
def matchingParen (s : Str) («open» : Nat) : Option Nat :=
  if s[«open»]? = some '(' then
    (matchingParenFrom 1 false (s.drop («open» + 1))).map (· + («open» + 1))
  else none

/-- `split_top_commas`, with the piece that has begun. -/
def splitTopCommasFrom (depth : Int) (piece : Str) : Str → Option (List Str)
  | [] => if depth = 0 then some [piece] else none
  | c :: rest =>
    if c = ')' && depth - 1 < 0 then none
    else if c = ',' && depth = 0 then
      (splitTopCommasFrom depth [] rest).map (fun pieces => piece :: pieces)
    else splitTopCommasFrom (deeper depth c) (piece ++ [c]) rest

/-- `split_top_commas`. -/
def splitTopCommas (s : Str) : Option (List Str) := splitTopCommasFrom 0 [] s

/-- `split_top_and`, with the conjunct that has begun; `skipped` counts what is left of a
separator. -/
def splitTopAndFrom (depth : Int) (skipped : Nat) (piece : Str) : Str → Attempt (List Str)
  | [] => .found [piece]
  | c :: rest =>
    match skipped with
    | left + 1 => splitTopAndFrom depth left piece rest
    | 0 =>
      if deeper depth c = 0 then
        let lower := Text.toAsciiLowercase (c :: rest)
        if Text.startsWith lower " or ".str then .refused
        else if Text.startsWith lower " and ".str then do
          let pieces ← splitTopAndFrom 0 4 [] rest
          pure (piece :: pieces)
        else if !Text.isAscii c then .panicked
        else splitTopAndFrom 0 0 (piece ++ [c]) rest
      else splitTopAndFrom (deeper depth c) 0 (piece ++ [c]) rest

/-- `split_top_and`. -/
def splitTopAnd (s : Str) : Attempt (List Str) := splitTopAndFrom 0 0 [] s

/-! ## Expressions and predicates -/

/-- `parse_expr`. Operands of operands are shorter, so the length of the text is fuel
enough. -/
def parseExprWith : Nat → Str → Attempt Expr
  | 0, _ => .refused
  | fuel + 1, source => do
    let s := Text.trim source
    if s.isEmpty then .refused
    else
      match findTop s "::".str with
      | .panicked => .panicked
      | .found pos => do
        let inner ← parseExprWith fuel (s.take pos)
        pure (.cast inner (IrType.parse (s.drop (pos + 2))))
      | .refused =>
        let name := s.drop 1
        if s.head? = some ':' && isIdent name then pure (.bind name)
        else
          let opening := s.findIdx (· == '(')
          let called := Text.trim (s.take opening)
          if matchingParen s opening = some (s.length - 1) && isIdent called then
            let inner := (s.drop (opening + 1)).dropLast
            if (Text.trim inner).isEmpty then pure (.fn called [])
            else do
              let parts ← Attempt.ofOption (splitTopCommas inner)
              let args ← parts.mapM (parseExprWith fuel)
              pure (.fn called args)
          else if s.head? = some '\'' && s.getLast? = some '\'' && 2 ≤ s.length then pure (.lit s)
          else if (F64.parse s).isSome ||
              ["true".str, "false".str, "null".str].contains (Text.toAsciiLowercase s) then
            pure (.lit s)
          else if isDottedIdent s then pure (.col s)
          else pure (.raw s)

/-- `parse_expr`. -/
def parseExpr (s : Str) : Attempt Expr := parseExprWith (s.length + 1) s

/-- `strip_trailing_not`. -/
def stripTrailingNot (expr : Expr) (lhsSrc : Str) : Attempt (Expr × Bool) :=
  let trimmed := Text.trim lhsSrc
  if " not".str.isSuffixOf (Text.toAsciiLowercase trimmed) then
    match parseExpr (trimmed.take (trimmed.length - 4)) with
    | .found e => pure (e, true)
    | .refused => pure (expr, false)
    | .panicked => .panicked
  else pure (expr, false)

/-- The comparison operators, longest first. -/
def comparisons : List (Str × CmpOp) :=
  [(" >= ".str, .ge), (" <= ".str, .le), (" != ".str, .ne), (" <> ".str, .ne),
    (" = ".str, .eq), (" > ".str, .gt), (" < ".str, .lt)]

/-- The loop over the comparison operators. -/
def parseCompareWith (s : Str) : List (Str × CmpOp) → Attempt Predicate
  | [] => .refused
  | (token, op) :: rest =>
    match findTop s token with
    | .panicked => .panicked
    | .refused => parseCompareWith s rest
    | .found pos => do
      let lhs ← parseExpr (s.take pos)
      let rhs ← parseExpr (s.drop (pos + token.length))
      pure (.compare lhs op rhs)

/-- The branch of `parse_predicate` for an `IN` list whose keyword begins at a position. -/
def parseInList (s : Str) (pos : Nat) : Attempt Predicate := do
  let lhs ← parseExpr (s.take pos)
  let (expr, negated) ← stripTrailingNot lhs (s.take pos)
  let opening := pos + (s.drop pos).findIdx (· == '(')
  let close ← Attempt.ofOption (matchingParen s opening)
  let inner := (s.take close).drop (opening + 1)
  let parts ← Attempt.ofOption (splitTopCommas inner)
  let items ← parts.mapM parseExpr
  pure (.inList expr items negated)

/-- `parse_predicate`. -/
def parsePredicate (s : Str) : Attempt Predicate :=
  let lower := Text.toAsciiLowercase s
  match (findTop lower " in (".str).orElse (findTop lower " in(".str) with
  | .panicked => .panicked
  | .found pos => parseInList s pos
  | .refused => parseCompareWith s comparisons

/-- `parse_where`. -/
def parseWhere (s : Str) : Attempt (List Predicate) := do
  let conjs ← splitTopAnd s
  conjs.mapM (fun c => parsePredicate (Text.trim c))

/-! ## Clauses -/

inductive Marker where
  | select
  | «from»
  | join (kind : JoinKind)
  | where_
  | groupBy
  | orderBy
  | limit
  deriving DecidableEq

/-- `KEYWORDS`, longest first. -/
def keywords : List (Str × Marker) :=
  [("select".str, .select), ("from".str, .from), ("left join".str, .join .left),
    ("inner join".str, .join .inner), ("join".str, .join .inner), ("where".str, .where_),
    ("group by".str, .groupBy), ("order by".str, .orderBy), ("limit".str, .limit)]

/-- `Marker::kw_len`. -/
def Marker.kwLen : Marker → Nat
  | select => 6
  | «from» => 4
  | join .inner => 4
  | join .left => 9
  | where_ => 5
  | groupBy => 8
  | orderBy => 8
  | limit => 5

/-- `matches_kw`: the keyword is there as a whole word. -/
def matchesKw (lower kw : Str) : Bool :=
  Text.startsWith lower kw && (lower.drop kw.length).head?.all (· == ' ')

/-- The markers of a lower-case text with their offsets. The scan goes on behind a keyword
and the character after it. -/
def markersFrom (offset : Nat) (depth : Int) (boundary : Bool) (skipped : Nat) :
    Str → List (Nat × Marker)
  | [] => []
  | c :: rest =>
    match skipped with
    | left + 1 => markersFrom (offset + 1) depth (c == ' ') left rest
    | 0 =>
      match if deeper depth c = 0 && boundary then
          keywords.find? (fun entry => matchesKw (c :: rest) entry.1) else none with
      | some (kw, marker) =>
        (offset, marker) :: markersFrom (offset + 1) (deeper depth c) (c == ' ') kw.length rest
      | none => markersFrom (offset + 1) (deeper depth c) (c == ' ') 0 rest

def markers (norm : Str) : List (Nat × Marker) :=
  markersFrom 0 0 true 0 (Text.toAsciiLowercase norm)

structure Clauses where
  select : Option Str := none
  «from» : Option Str := none
  joins : List (JoinKind × Str) := []
  where_ : Option Str := none
  groupBy : Option Str := none
  orderBy : Option Str := none
  limit : Option Str := none
  deriving DecidableEq

/-- A clause replaces an earlier one of its keyword; joins are all kept. -/
def Clauses.put (clauses : Clauses) (body : Str) : Marker → Clauses
  | .select => { clauses with select := some body }
  | .from => { clauses with «from» := some body }
  | .join kind => { clauses with joins := clauses.joins ++ [(kind, body)] }
  | .where_ => { clauses with where_ := some body }
  | .groupBy => { clauses with groupBy := some body }
  | .orderBy => { clauses with orderBy := some body }
  | .limit => { clauses with limit := some body }

/-- The loop over the spans between markers. -/
def collectClauses (norm : Str) (clauses : Clauses) : List (Nat × Marker) → Option Clauses
  | [] => some clauses
  | (start, marker) :: rest =>
    let bodyStart := start + marker.kwLen
    let bodyEnd := (rest.head?.map Prod.fst).getD norm.length
    if bodyStart > bodyEnd || bodyEnd > norm.length then none
    else
      let body := Text.trim ((norm.take bodyEnd).drop bodyStart)
      collectClauses norm (clauses.put body marker) rest

/-- `split_clauses`. -/
def splitClauses (norm : Str) : Option Clauses :=
  if (markers norm).head? = some (0, .select) then
    (collectClauses norm {} (markers norm)).filter
      (fun clauses => clauses.select.isSome && clauses.from.isSome)
  else none

/-! ## Statements -/

/-- `normalize_ws`: runs of white space become single spaces. -/
def collapse (prevSpace : Bool) : Str → Str
  | [] => []
  | c :: rest =>
    if Text.isWhitespace c then
      if prevSpace then collapse true rest else ' ' :: collapse true rest
    else c :: collapse false rest

def normalizeWs (s : Str) : Str := Text.trim (collapse false s)

/-- `str::split_whitespace`. -/
def splitWhitespace (s : Str) : List Str :=
  ((s.splitOnP Text.isWhitespace).filter (fun word => !word.isEmpty))

/-- `parse_table_ref`. -/
def parseTableRef (source : Str) : Option TableRef :=
  let s := Text.trim source
  if s.isEmpty || s.contains '(' || s.contains ',' then none
  else
    let read (name : Str) («alias» : Option Str) : Option TableRef :=
      if isDottedIdent name then
        match Text.splitOnce '.' name with
        | some (schema, table) => some ⟨some schema, table, «alias»⟩
        | none => some ⟨none, name, «alias»⟩
      else none
    match splitWhitespace s with
    | [name] => read name none
    | [name, other] => read name (some other)
    | [name, word, other] =>
      if Text.toAsciiLowercase word = "as".str then read name (some other) else none
    | _ => none

/-- `parse_order_by`, one item. -/
def parseOrderItem (source : Str) : Option OrderItem :=
  let it := Text.trim source
  let lower := Text.toAsciiLowercase it
  let item : OrderItem :=
    if " desc".str.isSuffixOf lower then ⟨Text.trim (it.take (it.length - 5)), .desc⟩
    else if " asc".str.isSuffixOf lower then ⟨Text.trim (it.take (it.length - 4)), .asc⟩
    else ⟨it, .asc⟩
  if item.expr.isEmpty then none else some item

/-- `parse_order_by`. -/
def parseOrderBy (s : Str) : Option (List OrderItem) :=
  (splitTopCommas s).bind (fun items => items.mapM parseOrderItem)

/-- `parse_limit`. -/
def parseLimit (source : Str) : Option Limit :=
  let s := Text.trim source
  if s.head? = some ':' && isIdent (s.drop 1) then some (.bind (s.drop 1))
  else (Text.parseI64 s).map .lit

/-- The text before and after the first `on` of a join, in any case. -/
def splitAtOn : Str → Option (Str × Str)
  | [] => none
  | c :: rest =>
    if Text.startsWith (Text.toAsciiLowercase (c :: rest)) " on ".str then
      some ([], (c :: rest).drop 4)
    else (splitAtOn rest).map (fun parts => (c :: parts.1, parts.2))

/-- Why there is no query. -/
inductive Stop where
  | fallback (construct : Str)
  | panicked
  deriving DecidableEq

abbrev ParseOutcome := Except Stop QueryIr

/-- `None` of a step is a fallback, which names the construct. -/
def Attempt.orFallback {T : Type} (attempt : Attempt T) (construct : Str) : Except Stop T :=
  match attempt with
  | .found value => .ok value
  | .refused => .error (.fallback construct)
  | .panicked => .error .panicked

def orFallback {T : Type} (result : Option T) (construct : Str) : Except Stop T :=
  (Attempt.ofOption result).orFallback construct

/-- The constructs that are not modelled. -/
def bailOuts : List (Str × Str) :=
  [(" union ".str, "UNION".str), (" intersect ".str, "INTERSECT".str),
    (" except ".str, "EXCEPT".str), ("with ".str, "CTE (WITH)".str),
    (" over (".str, "window function (OVER)".str), (" over(".str, "window function (OVER)".str),
    (" filter (".str, "aggregate FILTER".str), (" filter(".str, "aggregate FILTER".str),
    ("interval ".str, "interval arithmetic".str),
    ("jsonb_array_elements".str, "jsonb_array_elements".str),
    (" case ".str, "CASE expression".str), ("distinct ".str, "DISTINCT".str),
    (" having ".str, "HAVING".str)]

/-- One join of the statement. -/
def parseJoin (kind : JoinKind) (rest : Str) : Except Stop Join := do
  let (tblStr, onStr) ← orFallback (splitAtOn rest) "JOIN without ON".str
  let table ← orFallback (parseTableRef tblStr) "complex JOIN target".str
  pure ⟨kind, table, Text.trim onStr⟩

/-- An optional clause, read by its own reader. -/
def parseClause {T : Type} (read : Str → Attempt (List T)) (construct : Str) :
    Option Str → Except Stop (List T)
  | none => .ok []
  | some body => (read body).orFallback construct

/-- `parse_select`. -/
def parseSelect (sql : Str) : ParseOutcome := do
  let norm := normalizeWs sql
  let lower := Text.toAsciiLowercase norm
  match bailOuts.find? (fun entry => Text.contains lower entry.1) with
  | some (_, label) => .error (.fallback label)
  | none =>
    if !Text.startsWith lower "select ".str then
      .error (.fallback "non-SELECT statement".str)
    else do
      let clauses ← orFallback (splitClauses norm) "unrecognised clause structure".str
      let «from» ← orFallback (parseTableRef (clauses.from.getD []))
        "complex FROM (subquery/comma-join)".str
      let joins ← clauses.joins.mapM (fun join => parseJoin join.1 join.2)
      let items ← orFallback (splitTopCommas (clauses.select.getD [])) "unbalanced SELECT list".str
      if items.isEmpty then .error (.fallback "empty SELECT list".str)
      else do
        let where_ ← parseClause parseWhere "WHERE predicate outside grammar".str clauses.where_
        let groupBy ← parseClause
          (fun g => Attempt.ofOption ((splitTopCommas g).map (List.map Text.trim)))
          "unbalanced GROUP BY".str clauses.groupBy
        let orderBy ← parseClause (fun o => Attempt.ofOption (parseOrderBy o))
          "complex ORDER BY".str clauses.orderBy
        let limit ← match clauses.limit with
          | none => .ok none
          | some l => (orFallback (parseLimit l) "complex LIMIT".str).map some
        pure ⟨items.map (fun item => ⟨Text.trim item⟩), «from», joins, where_, groupBy, orderBy,
          limit⟩

end LumidPlatform.Read.Parse
