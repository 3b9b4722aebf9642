import LumidPlatform.Read.Slices
import LumidPlatform.Read.Spec

/-!
# Loading a read config

`parse` drops the endpoints that fail the checks and hands the SQL of the others to the SELECT
reader. One of them that makes the reader panic takes all of them down. The reader panics on a
statement exactly where it comes to a condition, and in it to a character that is exposed to
one of its scans.
-/

namespace LumidPlatform.Read.Boot

open LumidPlatform.Read.Ir Parse Slices Spec

variable {T U : Type} {s w sql : Str} {pos : Nat}

/-! ## Predicates -/

/-- Where the list of an `IN` begins, with its keyword. -/
def listAt (s : Str) : Attempt Nat :=
  (findTop (Text.toAsciiLowercase s) " in (".str).orElse
    (findTop (Text.toAsciiLowercase s) " in(".str)

/-- The text ends with `NOT`. -/
def endsWithNot (s : Str) : Bool :=
  " not".str.isSuffixOf (Text.toAsciiLowercase (Text.trim s))

/-- The text without the `NOT` at its end. -/
def withoutNot (s : Str) : Str := (Text.trim s).take ((Text.trim s).length - 4)

/-- Where the parenthesis of a list opens. -/
def listOpening (s : Str) (pos : Nat) : Nat := pos + (s.drop pos).findIdx (· == '(')

/-- Reading an `IN` list comes to an exposed character: in the operand, in what is left of it
without its `NOT`, or in an item after others that were read. -/
inductive TroubledList (s : Str) (pos : Nat) : Prop where
  | operand (troubled : Troubled (s.take pos))
  | negated {lhs : Expr} (read : parseExpr (s.take pos) = .found lhs)
      (not : endsWithNot (s.take pos) = true) (troubled : Troubled (withoutNot (s.take pos)))
  | item {lhs : Expr} {close : Nat} {before after : List Str} {part : Str}
      (read : parseExpr (s.take pos) = .found lhs)
      (closes : matchingParen s (listOpening s pos) = some close)
      (split : splitTopCommas ((s.take close).drop (listOpening s pos + 1)) =
        some (before ++ part :: after))
      (readable : ∀ earlier ∈ before, ∃ expr, parseExpr earlier = .found expr)
      (troubled : Troubled part)

/-- Reading a comparison comes to an exposed character: in the search for an operator after
others that are not there, or in an operand of the one that is. -/
def TroubledCompare (s : Str) (operators : List (Str × CmpOp)) : Prop :=
  ∃ before token op after, operators = before ++ (token, op) :: after ∧
    (∀ earlier ∈ before, findTop s earlier.1 = .refused) ∧
    (ExposedTo token s ∨ ∃ pos, findTop s token = .found pos ∧
      (Troubled (s.take pos) ∨
        ∃ lhs, parseExpr (s.take pos) = .found lhs ∧ Troubled (s.drop (pos + token.length))))

/-- Reading a predicate comes to an exposed character. -/
inductive TroubledPredicate (s : Str) : Prop where
  | keyword (exposed : ExposedTo " in (".str (Text.toAsciiLowercase s))
  | tightKeyword (absent : findTop (Text.toAsciiLowercase s) " in (".str = .refused)
      (exposed : ExposedTo " in(".str (Text.toAsciiLowercase s))
  | list {pos : Nat} (found : listAt s = .found pos) (troubled : TroubledList s pos)
  | compare (absent : listAt s = .refused) (troubled : TroubledCompare s comparisons)

theorem plain_operators : ∀ operator ∈ comparisons, Plain operator.1 := by
  have all : comparisons.all (fun operator => !operator.1.isEmpty && operator.1.all Text.isAscii) =
      true := by decide
  intro operator member
  have plain := List.all_eq_true.mp all operator member
  rw [Bool.and_eq_true, Bool.not_eq_true'] at plain
  exact ⟨List.isEmpty_eq_false_iff.mp plain.1, List.all_eq_true.mp plain.2⟩

theorem parseCompareWith_panicked {operators : List (Str × CmpOp)}
    (plain : ∀ operator ∈ operators, Plain operator.1) :
    parseCompareWith s operators = .panicked ↔ TroubledCompare s operators := by
  induction operators with
  | nil =>
    refine iff_of_false nofun ?_
    rintro ⟨before, token, op, after, whole, -⟩
    simp at whole
  | cons operator rest inductionHypothesis =>
    obtain ⟨token, op⟩ := operator
    have later := inductionHypothesis
      (fun other member => plain other (List.mem_cons_of_mem _ member))
    have here : Plain token := plain (token, op) List.mem_cons_self
    -- A comparison is read with the first operator that is there.
    have first (decided : findTop s token ≠ .refused) :
        TroubledCompare s ((token, op) :: rest) ↔ ExposedTo token s ∨
          ∃ pos, findTop s token = .found pos ∧ (Troubled (s.take pos) ∨
            ∃ lhs, parseExpr (s.take pos) = .found lhs ∧
              Troubled (s.drop (pos + token.length))) := by
      constructor
      · rintro ⟨before, token', op', after, whole, absent, trouble⟩
        cases before with
        | nil =>
          obtain ⟨same, -⟩ := List.cons.inj whole
          obtain ⟨rfl, rfl⟩ := Prod.mk.inj same
          exact trouble
        | cons earlier before =>
          obtain ⟨rfl, -⟩ := List.cons.inj whole
          exact absurd (absent (token, op) List.mem_cons_self) decided
      · exact fun trouble => ⟨[], token, op, rest, rfl, nofun, trouble⟩
    rw [parseCompareWith]
    cases found : findTop s token with
    | panicked =>
      rw [first (by rw [found]; exact nofun)]
      exact iff_of_true rfl (.inl ((findTop_panicked here).mp found))
    | found pos =>
      rw [first (by rw [found]; exact nofun)]
      dsimp only
      have unexposed : ¬ExposedTo token s := by
        rw [← findTop_panicked here, found]
        exact nofun
      rw [bind_panicked, or_iff_right unexposed]
      constructor
      · rintro (left | ⟨lhs, read, onward⟩)
        · exact ⟨pos, found, .inl (parseExpr_panicked.mp left)⟩
        · have right := (bind_panicked.mp onward).resolve_right
            (fun ⟨_, _, impossible⟩ => by cases impossible)
          exact ⟨pos, found, .inr ⟨lhs, read, parseExpr_panicked.mp right⟩⟩
      · rintro ⟨pos', found', trouble⟩
        obtain rfl := Attempt.found.inj (found.symm.trans found')
        rcases trouble with left | ⟨lhs, read, right⟩
        · exact .inl (parseExpr_panicked.mpr left)
        · exact .inr ⟨lhs, read, bind_panicked.mpr (.inl (parseExpr_panicked.mpr right))⟩
    | refused =>
      dsimp only
      rw [later]
      constructor
      · rintro ⟨before, token', op', after, rfl, absent, trouble⟩
        refine ⟨(token, op) :: before, token', op', after, rfl, fun earlier member => ?_, trouble⟩
        rcases List.mem_cons.mp member with rfl | inRest
        · exact found
        · exact absent earlier inRest
      · rintro ⟨before, token', op', after, whole, absent, trouble⟩
        cases before with
        | nil =>
          obtain ⟨same, -⟩ := List.cons.inj whole
          obtain ⟨rfl, rfl⟩ := Prod.mk.inj same
          rcases trouble with exposed | ⟨pos, found', -⟩
          · rw [(findTop_panicked here).mpr exposed] at found
            cases found
          · rw [found'] at found
            cases found
        | cons earlier before =>
          obtain ⟨rfl, rfl⟩ := List.cons.inj whole
          exact ⟨before, token', op', after, rfl,
            fun other member => absent other (List.mem_cons_of_mem _ member), trouble⟩

theorem stripTrailingNot_eq (expr : Expr) (lhsSrc : Str) :
    stripTrailingNot expr lhsSrc =
      if endsWithNot lhsSrc then
        match parseExpr (withoutNot lhsSrc) with
        | .found e => .found (e, true)
        | .refused => .found (expr, false)
        | .panicked => .panicked
      else .found (expr, false) := rfl

/-- `strip_trailing_not` panics where what it strips is troubled. -/
theorem stripTrailingNot_panicked (expr : Expr) {lhsSrc : Str} :
    stripTrailingNot expr lhsSrc = .panicked ↔
      endsWithNot lhsSrc = true ∧ Troubled (withoutNot lhsSrc) := by
  rw [stripTrailingNot_eq, ← parseExpr_panicked]
  by_cases not : endsWithNot lhsSrc = true
  · rw [if_pos not, and_iff_right not]
    cases parseExpr (withoutNot lhsSrc) with
    | found e => exact iff_of_false nofun nofun
    | refused => exact iff_of_false nofun nofun
    | panicked => exact iff_of_true rfl rfl
  · rw [if_neg not]
    exact iff_of_false nofun (fun both => not both.1)

/-- `strip_trailing_not` never refuses. -/
theorem stripTrailingNot_found {expr : Expr} {lhsSrc : Str}
    (calm : ¬(endsWithNot lhsSrc = true ∧ Troubled (withoutNot lhsSrc))) :
    ∃ stripped, stripTrailingNot expr lhsSrc = .found stripped := by
  rw [← stripTrailingNot_panicked expr] at calm
  rw [stripTrailingNot_eq] at calm ⊢
  split_ifs at calm ⊢
  · generalize parseExpr (withoutNot lhsSrc) = read at calm ⊢
    cases read with
    | found e => exact ⟨_, rfl⟩
    | refused => exact ⟨_, rfl⟩
    | panicked => exact absurd rfl calm
  · exact ⟨_, rfl⟩

theorem parseInList_panicked : parseInList s pos = .panicked ↔ TroubledList s pos := by
  rw [parseInList]
  constructor
  · intro panicked
    rcases bind_panicked.mp panicked with operand | ⟨lhs, read, onward⟩
    · exact .operand (parseExpr_panicked.mp operand)
    · rcases bind_panicked.mp onward with stripped | ⟨stripped, -, onward⟩
      · obtain ⟨not, troubled⟩ := (stripTrailingNot_panicked lhs).mp stripped
        exact .negated read not troubled
      · obtain ⟨close, closes, onward⟩ := (bind_panicked.mp onward).resolve_left ofOption_panicked
        obtain ⟨parts, split, onward⟩ := (bind_panicked.mp onward).resolve_left ofOption_panicked
        have items := (bind_panicked.mp onward).resolve_right
          (fun ⟨_, _, impossible⟩ => by cases impossible)
        obtain ⟨before, part, after, rfl, readable, panics⟩ := mapM_panicked.mp items
        exact .item read (ofOption_found.mp closes) (ofOption_found.mp split) readable
          (parseExpr_panicked.mp panics)
  · intro troubled
    cases troubled with
    | operand troubled => exact bind_panicked.mpr (.inl (parseExpr_panicked.mpr troubled))
    | @negated lhs read not troubled =>
      refine bind_panicked.mpr (.inr ⟨lhs, read, bind_panicked.mpr (.inl ?_)⟩)
      exact (stripTrailingNot_panicked lhs).mpr ⟨not, troubled⟩
    | @item lhs close before after part read closes split readable troubled =>
      refine bind_panicked.mpr (.inr ⟨lhs, read, bind_panicked.mpr ?_⟩)
      by_cases calm : endsWithNot (s.take pos) = true ∧ Troubled (withoutNot (s.take pos))
      · exact .inl ((stripTrailingNot_panicked lhs).mpr calm)
      · obtain ⟨stripped, found⟩ := stripTrailingNot_found calm
        refine .inr ⟨stripped, found,
          bind_panicked.mpr (.inr ⟨close, ofOption_found.mpr closes, ?_⟩)⟩
        refine bind_panicked.mpr (.inr ⟨_, ofOption_found.mpr split, bind_panicked.mpr (.inl ?_)⟩)
        exact mapM_panicked.mpr
          ⟨before, part, after, rfl, readable, parseExpr_panicked.mpr troubled⟩

theorem plain_keywords : Plain " in (".str ∧ Plain " in(".str :=
  ⟨⟨by decide, List.all_eq_true.mp (by decide)⟩, ⟨by decide, List.all_eq_true.mp (by decide)⟩⟩

theorem listAt_panicked : listAt s = .panicked ↔
    ExposedTo " in (".str (Text.toAsciiLowercase s) ∨
      (findTop (Text.toAsciiLowercase s) " in (".str = .refused ∧
        ExposedTo " in(".str (Text.toAsciiLowercase s)) := by
  rw [← findTop_panicked plain_keywords.1, ← findTop_panicked plain_keywords.2, listAt]
  cases findTop (Text.toAsciiLowercase s) " in (".str with
  | found pos =>
    exact iff_of_false nofun
      (fun either => either.elim nofun
        (fun both => by cases both.1))
  | refused => exact ⟨fun panicked => .inr ⟨rfl, panicked⟩,
      fun either => either.elim nofun And.right⟩
  | panicked => exact iff_of_true rfl (.inl rfl)

theorem parsePredicate_listAt (s : Str) : parsePredicate s = match listAt s with
    | .panicked => .panicked
    | .found pos => parseInList s pos
    | .refused => parseCompareWith s comparisons := rfl

theorem parsePredicate_panicked : parsePredicate s = .panicked ↔ TroubledPredicate s := by
  rw [parsePredicate_listAt]
  cases found : listAt s with
  | panicked =>
    refine iff_of_true rfl ?_
    rcases listAt_panicked.mp found with exposed | ⟨absent, exposed⟩
    · exact .keyword exposed
    · exact .tightKeyword absent exposed
  | found pos =>
    dsimp only
    rw [parseInList_panicked]
    have calm : listAt s ≠ .panicked := by
      rw [found]
      exact fun same => by cases same
    rw [Ne, listAt_panicked] at calm
    constructor
    · exact .list found
    · intro troubled
      cases troubled with
      | keyword exposed => exact absurd (.inl exposed) calm
      | tightKeyword absent exposed => exact absurd (.inr ⟨absent, exposed⟩) calm
      | list found' troubled =>
        obtain rfl := Attempt.found.inj (found.symm.trans found')
        exact troubled
      | compare absent _ =>
        rw [found] at absent
        cases absent
  | refused =>
    dsimp only
    rw [parseCompareWith_panicked plain_operators]
    have calm : listAt s ≠ .panicked := by
      rw [found]
      exact fun same => by cases same
    rw [Ne, listAt_panicked] at calm
    constructor
    · exact .compare found
    · intro troubled
      cases troubled with
      | keyword exposed => exact absurd (.inl exposed) calm
      | tightKeyword absent exposed => exact absurd (.inr ⟨absent, exposed⟩) calm
      | list found' _ =>
        rw [found] at found'
        cases found'
      | compare _ troubled => exact troubled

/-! ## Conditions -/

/-- Reading a condition comes to an exposed character: in the split at `AND`, or in a conjunct
after others that were read. -/
def TroubledWhere (w : Str) : Prop :=
  ExposedToAnd w ∨ ∃ before conjunct after, splitTopAnd w = .found (before ++ conjunct :: after) ∧
    (∀ earlier ∈ before, ∃ predicate, parsePredicate (Text.trim earlier) = .found predicate) ∧
    TroubledPredicate (Text.trim conjunct)

theorem parseWhere_panicked : parseWhere w = .panicked ↔ TroubledWhere w := by
  rw [parseWhere, bind_panicked, splitTopAnd_panicked]
  refine or_congr_right ⟨?_, ?_⟩
  · rintro ⟨conjuncts, split, panicked⟩
    obtain ⟨before, conjunct, after, rfl, readable, panics⟩ := mapM_panicked.mp panicked
    exact ⟨before, conjunct, after, split, readable, parsePredicate_panicked.mp panics⟩
  · rintro ⟨before, conjunct, after, split, readable, troubled⟩
    exact ⟨_, split, mapM_panicked.mpr ⟨before, conjunct, after, rfl, readable,
      parsePredicate_panicked.mpr troubled⟩⟩

/-! ## Statements -/

/-- A statement panics, or what comes after it does. -/
theorem bind_error {outcome : Except Stop T} {next : T → Except Stop U} :
    (outcome >>= next) = .error .panicked ↔
      outcome = .error .panicked ∨
        ∃ value, outcome = .ok value ∧ next value = .error .panicked := by
  cases outcome with
  | ok value =>
    constructor
    · exact fun later => .inr ⟨value, rfl, later⟩
    · rintro (impossible | ⟨_, same, later⟩)
      · cases impossible
      · cases same
        exact later
  | error stop =>
    constructor
    · exact fun same => .inl (congrArg Except.error (Except.error.inj same))
    · rintro (same | ⟨_, impossible, -⟩)
      · exact congrArg Except.error (Except.error.inj same)
      · cases impossible

theorem orFallback_panicked {result : Option T} {construct : Str} :
    orFallback result construct ≠ .error .panicked := by
  cases result with
  | none => exact nofun
  | some value => exact nofun

theorem orFallback_ok {result : Option T} {construct : Str} {value : T} :
    orFallback result construct = .ok value ↔ result = some value := by
  cases result with
  | none => exact iff_of_false nofun nofun
  | some found =>
    exact ⟨fun same => congrArg some (Except.ok.inj same), fun same => by cases same; rfl⟩

/-- The joins are read one after the other; none of them panics. -/
theorem joins_panicked (joins : List (JoinKind × Str)) :
    joins.mapM (fun join => parseJoin join.1 join.2) ≠ .error .panicked := by
  induction joins with
  | nil => exact nofun
  | cons first rest inductionHypothesis =>
    rw [List.mapM_cons, Ne, bind_error]
    rintro (panicked | ⟨_, -, later⟩)
    · rw [parseJoin, bind_error] at panicked
      obtain ⟨_, -, onward⟩ := panicked.resolve_left orFallback_panicked
      obtain ⟨_, -, impossible⟩ := (bind_error.mp onward).resolve_left orFallback_panicked
      cases impossible
    · rcases bind_error.mp later with panicked | ⟨_, -, impossible⟩
      · exact inductionHypothesis panicked
      · cases impossible

/-- The reader comes to the condition of a statement: no construct that it bails out of, and
everything before the condition is read. -/
structure ReadsWhere (sql w : Str) : Prop where
  plain : bailOuts.find? (fun entry =>
    Text.contains (Text.toAsciiLowercase (normalizeWs sql)) entry.1) = none
  selects : Text.startsWith (Text.toAsciiLowercase (normalizeWs sql)) "select ".str = true
  reached : ∃ clauses table joins items, splitClauses (normalizeWs sql) = some clauses ∧
    parseTableRef (clauses.from.getD []) = some table ∧
    clauses.joins.mapM (fun join => parseJoin join.1 join.2) = .ok joins ∧
    splitTopCommas (clauses.select.getD []) = some items ∧ items ≠ [] ∧ clauses.where_ = some w

/-- A clause whose reader only refuses never panics. -/
theorem parseClause_panicked {read : Str → Option (List T)} {construct : Str} {body : Option Str} :
    parseClause (fun text => Attempt.ofOption (read text)) construct body ≠ .error .panicked := by
  cases body with
  | none => exact nofun
  | some text => exact orFallback_panicked

/-- The condition of a statement panics where there is one, and it is troubled. -/
theorem parseClause_where {body : Option Str} {construct : Str} :
    parseClause parseWhere construct body = .error .panicked ↔
      ∃ w, body = some w ∧ TroubledWhere w := by
  cases body with
  | none =>
    refine iff_of_false nofun ?_
    rintro ⟨_, impossible, -⟩
    cases impossible
  | some text =>
    have clause : parseClause parseWhere construct (some text) =
        (parseWhere text).orFallback construct := rfl
    have outcome : (parseWhere text).orFallback construct = .error .panicked ↔
        parseWhere text = .panicked := by
      cases parseWhere text with
      | found value => exact iff_of_false nofun nofun
      | refused => exact iff_of_false nofun nofun
      | panicked => exact iff_of_true rfl rfl
    rw [clause, outcome, parseWhere_panicked]
    constructor
    · exact fun troubled => ⟨text, rfl, troubled⟩
    · rintro ⟨_, same, troubled⟩
      obtain rfl := Option.some.inj same
      exact troubled

/-- `parse_select` panics exactly where it comes to a condition that is troubled. -/
theorem parseSelect_panicked :
    parseSelect sql = .error .panicked ↔ ∃ w, ReadsWhere sql w ∧ TroubledWhere w := by
  rw [parseSelect]
  dsimp only
  cases bail : bailOuts.find? (fun entry =>
      Text.contains (Text.toAsciiLowercase (normalizeWs sql)) entry.1) with
  | some entry =>
    refine iff_of_false nofun ?_
    rintro ⟨w, reads, -⟩
    rw [reads.plain] at bail
    cases bail
  | none =>
    dsimp only
    cases selects : Text.startsWith (Text.toAsciiLowercase (normalizeWs sql)) "select ".str with
    | false =>
      refine iff_of_false nofun ?_
      rintro ⟨w, reads, -⟩
      rw [reads.selects] at selects
      cases selects
    | true =>
      rw [Bool.not_true, if_neg Bool.false_ne_true]
      constructor
      · intro panicked
        obtain ⟨clauses, split, onward⟩ := (bind_error.mp panicked).resolve_left orFallback_panicked
        obtain ⟨table, reads, onward⟩ := (bind_error.mp onward).resolve_left orFallback_panicked
        obtain ⟨joins, joined, onward⟩ := (bind_error.mp onward).resolve_left (joins_panicked _)
        obtain ⟨items, listed, onward⟩ := (bind_error.mp onward).resolve_left orFallback_panicked
        by_cases empty : items.isEmpty = true
        · rw [if_pos empty] at onward
          cases onward
        · rw [if_neg empty] at onward
          rcases bind_error.mp onward with condition | ⟨_, -, onward⟩
          · obtain ⟨w, there, troubled⟩ := parseClause_where.mp condition
            refine ⟨w, ⟨bail, selects, clauses, table, joins, items, orFallback_ok.mp split,
              orFallback_ok.mp reads, joined, orFallback_ok.mp listed, ?_, there⟩, troubled⟩
            exact fun nothing => empty (List.isEmpty_iff.mpr nothing)
          · obtain ⟨_, -, onward⟩ := (bind_error.mp onward).resolve_left parseClause_panicked
            obtain ⟨_, -, onward⟩ := (bind_error.mp onward).resolve_left parseClause_panicked
            generalize clauses.limit = limit at onward
            cases limit with
            | none => cases onward
            | some l =>
              dsimp only at onward
              generalize parseLimit l = parsed at onward
              cases parsed with
              | none => cases onward
              | some value => cases onward
      · rintro ⟨w, reads, troubled⟩
        obtain ⟨clauses, table, joins, items, split, reads, joined, listed, filled, there⟩ :=
          reads.reached
        refine bind_error.mpr (.inr ⟨clauses, orFallback_ok.mpr split, ?_⟩)
        refine bind_error.mpr (.inr ⟨table, orFallback_ok.mpr reads, ?_⟩)
        refine bind_error.mpr (.inr ⟨joins, joined, ?_⟩)
        refine bind_error.mpr (.inr ⟨items, orFallback_ok.mpr listed, ?_⟩)
        rw [if_neg (fun empty => filled (List.isEmpty_iff.mp empty))]
        exact bind_error.mpr (.inl (parseClause_where.mpr ⟨w, there, troubled⟩))

/-! ## The config -/

/-- The query of a statement, if it fits the grammar; nothing at all if the reader panics. -/
def compile (ep : EndpointSpec) : Option EndpointSpec :=
  match parseSelect ep.sql with
  | .ok ir => some { ep with ir := some ir }
  | .error (.fallback _) => some { ep with ir := none }
  | .error .panicked => none

/-- `parse` after deserialisation, with the panics of the SELECT reader: nothing if it panics on
one of the endpoints that are kept. -/
def load (crates : Crates) (endpoints : List EndpointSpec) : Option (List EndpointSpec) :=
  (endpoints.filter (fun ep => (lint crates ep).isOk)).mapM compile

theorem compile_eq_none {ep : EndpointSpec} :
    compile ep = none ↔ parseSelect ep.sql = .error .panicked := by
  rw [compile]
  cases parseSelect ep.sql with
  | ok ir =>
    exact iff_of_false nofun nofun
  | error stop =>
    cases stop with
    | fallback construct =>
      exact iff_of_false nofun nofun
    | panicked => exact iff_of_true rfl rfl

/-- An endpoint that compiles has the query of its statement, or none. -/
theorem compile_eq_some {ep compiled : EndpointSpec} (compiles : compile ep = some compiled) :
    compiled = { ep with ir := (parseSelect ep.sql).toOption } := by
  rw [compile] at compiles
  generalize parseSelect ep.sql = outcome at compiles ⊢
  cases outcome with
  | ok ir => exact (Option.some.inj compiles).symm
  | error stop =>
    cases stop with
    | fallback construct => exact (Option.some.inj compiles).symm
    | panicked => cases compiles

theorem mapM_compile (kept : List EndpointSpec) :
    kept.mapM compile =
        some (kept.map (fun ep => { ep with ir := (parseSelect ep.sql).toOption })) ↔
      ∀ ep ∈ kept, parseSelect ep.sql ≠ .error .panicked := by
  induction kept with
  | nil => exact iff_of_true rfl (fun ep member => absurd member List.not_mem_nil)
  | cons first rest inductionHypothesis =>
    rw [List.mapM_cons, List.forall_mem_cons, ← inductionHypothesis, Ne, ← compile_eq_none]
    cases compiles : compile first with
    | none => exact iff_of_false nofun (fun both => both.1 rfl)
    | some compiled =>
      rw [and_iff_right nofun, List.map_cons,
        ← compile_eq_some compiles]
      cases rest.mapM compile with
      | none =>
        exact iff_of_false nofun nofun
      | some others =>
        constructor
        · exact fun same => congrArg some (List.cons.inj (Option.some.inj same)).2
        · exact fun same => congrArg (fun tail => some (compiled :: tail)) (Option.some.inj same)

/-- A config gives the list of its endpoints that pass the checks, each with its query or none,
exactly if the reader comes to no troubled condition in any of them. -/
theorem config_loads (crates : Crates) (endpoints : List EndpointSpec) :
    load crates endpoints =
        some (parse crates (fun sql => (parseSelect sql).toOption) endpoints) ↔
      ∀ ep ∈ endpoints, (lint crates ep).isOk = true →
        ¬∃ w, ReadsWhere ep.sql w ∧ TroubledWhere w := by
  rw [load, parse, mapM_compile]
  constructor
  · intro calm ep member passed
    rw [← parseSelect_panicked]
    exact calm ep (List.mem_filter.mpr ⟨member, passed⟩)
  · intro calm ep kept
    obtain ⟨member, passed⟩ := List.mem_filter.mp kept
    rw [Ne, parseSelect_panicked]
    exact calm ep member passed

/-- Two endpoints that pass the checks; a string of the second one's condition has an accent. -/
def accented : List EndpointSpec :=
  [{ id := "jobs".str, path := "/jobs".str, ttl := "60s".str, sql := "SELECT id FROM jobs".str },
    { id := "cafe".str, path := "/cafe".str, ttl := "60s".str,
      sql := "SELECT id FROM shops WHERE name = 'café'".str }]

/-- The accent takes the other endpoint down with its own. -/
theorem accent_takes_down : accented.all (fun ep => (lint Crates.plain ep).isOk) = true ∧
    load Crates.plain accented = none :=
  ⟨by decide +kernel, Option.isNone_iff_eq_none.mp (by decide +kernel)⟩

end LumidPlatform.Read.Boot
