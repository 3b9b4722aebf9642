import LumidPlatform.Read.Dialect

/-!
# The text of a lowered query

What is sent to ClickHouse is a text of the query alone. A bind is a question mark, whatever
its value is, and the values only decide whether there is a text.
-/

namespace LumidPlatform.Read.Rendered

open LumidPlatform.Read.Ir LumidPlatform.Read.Dialect
open LumidPlatform.Read.Dialect.ClickHouseDialect

/-! ## Texts of queries -/

/-- A piece as it is written out. -/
def pieceText : Piece → Str
  | .char c => Text.pushBytes c
  | .bind _ => ['?']

/-- A text with its binds as question marks. -/
def questioned (text : Str) : Str := (pieces text).flatMap pieceText

mutual

/-- An expression as ClickHouse is sent it, each of its binds a question mark. -/
def exprText : Expr → Str
  | .col c => c
  | .lit l => l
  | .bind _ => ['?']
  | .fn name args => name ++ '(' :: Text.join ", ".str (exprTexts args) ++ [')']
  | .cast expr ty => "CAST(".str ++ exprText expr ++ " AS ".str ++ ty.ch.getD [] ++ [')']
  | .raw t => questioned t

/-- The arguments of a function, one by one. -/
def exprTexts : List Expr → List Str
  | [] => []
  | e :: rest => exprText e :: exprTexts rest

end

/-- A filter as ClickHouse is sent it. Combinations are bracketed, so that no precedence has to be
known. -/
def predicateText : Predicate → Str
  | .compare lhs op rhs => exprText lhs ++ ' ' :: op.sql ++ ' ' :: exprText rhs
  | .inList expr items negated =>
    exprText expr ++ ' ' :: (if negated then "NOT IN".str else "IN".str) ++ " (".str ++
      Text.join ", ".str (exprTexts items) ++ [')']
  | .and a b => '(' :: predicateText a ++ " AND ".str ++ predicateText b ++ [')']
  | .or a b => '(' :: predicateText a ++ " OR ".str ++ predicateText b ++ [')']
  | .not a => "NOT (".str ++ predicateText a ++ [')']
  | .raw t => questioned t

/-- A join with its condition, of which only the binds are replaced. -/
def joinText (j : Join) : Str :=
  j.kind.keyword ++ ' ' :: j.table.render ++ " ON ".str ++ questioned j.on

/-- A limit: its own number, or a mark for the bind. -/
def limitText : Limit → Str
  | .lit n => Text.showInt n
  | .bind _ => ['?']

/-- A keyword and conjuncts, or nothing. -/
def clauseText (keyword : Str) (conj : List Predicate) : Str :=
  if conj.isEmpty then [] else keyword ++ Text.join " AND ".str (conj.map predicateText)

/-- A keyword and items, or nothing. -/
def itemsText (keyword : Str) (items : List Str) : Str :=
  if items.isEmpty then [] else keyword ++ Text.join ", ".str items

/-- The whole statement in the order in which the clauses are written. The hoisted conjuncts stand
in the `PREWHERE`, and an absent clause leaves nothing behind. -/
def queryText (dialect : ClickHouseDialect) (ir : QueryIr) : Str :=
  let hoisted := dialect.splitPrewhere ir.where_
  "SELECT ".str ++ Text.join ", ".str (ir.select.map (fun item => questioned item.text)) ++
    " FROM ".str ++ ir.from.render ++ (if dialect.final_ then " FINAL".str else []) ++
    (ir.joins.map (fun j => ' ' :: joinText j)).flatten ++
    clauseText " PREWHERE ".str hoisted.1 ++ clauseText " WHERE ".str hoisted.2 ++
    itemsText " GROUP BY ".str ir.groupBy ++ itemsText " ORDER BY ".str (ir.orderBy.map renderOrder) ++
    ((ir.limit.map (fun lim => " LIMIT ".str ++ limitText lim)).getD [])

/-! ## Pieces -/

/-- A name that follows its colon is passed over when the text is cut into pieces. -/
theorem piecesFrom_skip {name : Str} (ident : ∀ d ∈ name, isIdent d = true) (nonempty : name ≠ [])
    (prevColon : Bool) (after : Str) :
    piecesFrom prevColon name.length (name ++ after) = piecesFrom false 0 after := by
  induction name generalizing prevColon with
  | nil => exact absurd rfl nonempty
  | cons d rest inductionHypothesis =>
    have notColon : (d == ':') = false := by
      have letter := ident d List.mem_cons_self
      rw [beq_eq_false_iff_ne]
      rintro rfl
      exact absurd letter (by decide)
    rw [List.length_cons, List.cons_append, piecesFrom, notColon]
    cases rest with
    | nil => rfl
    | cons e more =>
      exact inductionHypothesis (fun other member => ident other (List.mem_cons_of_mem d member))
        (by simp) false

/-- A text goes on with a character that is copied, or with a whole bind. -/
theorem piecesFrom_cases (prevColon : Bool) (c : Char) (rest : Str) :
    (bindAt prevColon c rest = none ∧
      piecesFrom prevColon 0 (c :: rest) = .char c :: piecesFrom (c == ':') 0 rest) ∨
    ∃ name after, c = ':' ∧ prevColon = false ∧ rest = name ++ after ∧ BindName name ∧
      after.head?.all (fun d => !isIdent d) = true ∧
      piecesFrom prevColon 0 (c :: rest) = .bind name :: piecesFrom false 0 after := by
  cases found : bindAt prevColon c rest with
  | none => exact Or.inl ⟨rfl, by simp only [piecesFrom, found]⟩
  | some name =>
    right
    rw [bindAt] at found
    split_ifs at found with here
    have bindName : BindName name := by
      cases rest with
      | nil => cases found
      | cons d more =>
        rw [bindAfterColon] at found
        split_ifs at found with begins
        obtain rfl := Option.some.inj found
        have ident : isIdent d = true := isIdent_of_start begins.2
        refine ⟨⟨d, more.takeWhile isIdent, ?_, begins.2⟩, fun e member => ?_⟩
        · rw [List.takeWhile_cons_of_pos ident]
        · exact List.mem_takeWhile_imp member
    obtain ⟨after, rfl, ends⟩ := (bindAfterColon_eq_some_iff bindName).mp found
    obtain ⟨first, others, shape, -⟩ := bindName.start
    refine ⟨name, after, here.1, here.2, rfl, bindName, ends, ?_⟩
    have found' : bindAt prevColon c (name ++ after) = some name := by
      rw [bindAt, if_pos here, found]
    simp only [piecesFrom, found']
    rw [piecesFrom_skip bindName.ident (by simp [shape])]

/-! ## Steps of a rendering -/

variable {T U : Type} {crates : Crates} {values : HashMap BindValue}
  {ordered later : List BindValue}

/-- A rendering that succeeds has rendered its first part, and then its second with the binds that
the first has pushed. -/
theorem bind_ok {first : Render T} {next : T → Render U} {result : U}
    (ran : (first >>= next) ordered = .ok (result, later)) :
    ∃ value pushed, first ordered = .ok (value, pushed) ∧
      next value pushed = .ok (result, later) := by
  cases step : first ordered with
  | error e =>
    have stops : (first >>= next) ordered = .error e := by
      simp [bind, StateT.bind, Except.bind, step]
    rw [stops] at ran
    cases ran
  | ok out =>
    refine ⟨out.1, out.2, rfl, ?_⟩
    rw [← ran]
    simp [bind, StateT.bind, Except.bind, step]

/-- A finished value is not changed, and pushes nothing. -/
theorem pure_ok {value result : T} (ran : (pure value : Render T) ordered = .ok (result, later)) :
    result = value :=
  (Prod.mk.inj (Except.ok.inj ran)).1.symm

/-- A rendering that writes the text of every element, where it does. -/
theorem mapM_ok {render : T → Render Str} {text : T → Str} {xs : List T} {shown : List Str}
    (each : ∀ x ∈ xs, ∀ {ordered later s}, render x ordered = .ok (s, later) → s = text x)
    (ran : xs.mapM render ordered = .ok (shown, later)) : shown = xs.map text := by
  induction xs generalizing ordered later shown with
  | nil =>
    rw [List.mapM_nil] at ran
    exact pure_ok ran
  | cons x rest inductionHypothesis =>
    rw [List.mapM_cons] at ran
    obtain ⟨head, pushed, first, more⟩ := bind_ok ran
    obtain ⟨others, between, tail, last⟩ := bind_ok more
    have same : head = text x := each x List.mem_cons_self first
    have texts : others = rest.map text :=
      inductionHypothesis (fun y member => each y (List.mem_cons_of_mem x member)) tail
    rw [pure_ok last, same, texts, List.map_cons]

/-! ## A rendering writes the text -/

/-- The pieces of a text are written behind what is there already, each bind as a mark. -/
theorem lowerPieces_text {out t : Str} {ps : List Piece}
    (lowered : lowerPieces (fun _ _ => ['?']) values out ordered ps = .ok (t, later)) :
    t = out ++ ps.flatMap pieceText := by
  induction ps generalizing out ordered with
  | nil =>
    obtain ⟨rfl, -⟩ := Prod.mk.inj (Except.ok.inj lowered)
    simp
  | cons piece rest inductionHypothesis =>
    cases piece with
    | char c =>
      rw [inductionHypothesis lowered, List.flatMap_cons, pieceText, List.append_assoc]
    | bind name =>
      rw [lowerPieces] at lowered
      split at lowered
      · rw [inductionHypothesis lowered, List.flatMap_cons, pieceText, List.append_assoc]
      · cases lowered

/-- So a clause text comes out with its binds replaced, and otherwise as it was. -/
theorem lowerTextBinds_text {text t : Str}
    (ran : lowerTextBinds values text ordered = .ok (t, later)) : t = questioned text := by
  rw [lowerTextBinds, lowerScan_eq_lowerPieces] at ran
  simpa [questioned, pieces] using lowerPieces_text ran

/-- A bind alone is a mark. -/
theorem pushBind_text {name t : Str} (ran : pushBind values name ordered = .ok (t, later)) :
    t = ['?'] := by
  rw [pushBind] at ran
  split at ran
  · exact (Prod.mk.inj (Except.ok.inj ran)).1.symm
  · cases ran

mutual

/-- An expression renders to its text, by induction on the expression. -/
theorem renderExpr_text : ∀ (e : Expr) {ordered later : List BindValue} {t : Str},
    renderExpr crates values e ordered = .ok (t, later) → t = exprText e
  | .col c, _, _, _, ran => by
    rw [renderExpr] at ran
    exact pure_ok ran
  | .lit l, _, _, _, ran => by
    rw [renderExpr] at ran
    exact pure_ok ran
  | .bind name, _, _, _, ran => by
    rw [renderExpr] at ran
    exact pushBind_text ran
  | .fn name args, _, _, _, ran => by
    rw [renderExpr] at ran
    obtain ⟨shown, pushed, inner, last⟩ := bind_ok ran
    rw [pure_ok last, renderExprs_text args inner, exprText]
  | .cast expr ty, _, _, _, ran => by
    rw [renderExpr] at ran
    obtain ⟨shown, pushed, inner, last⟩ := bind_ok ran
    cases known : ty.ch with
    | none =>
      rw [known] at last
      cases last
    | some chTy =>
      rw [known] at last
      rw [pure_ok last, renderExpr_text expr inner, exprText, known]
      rfl
  | .raw t, _, _, _, ran => by
    rw [renderExpr] at ran
    exact lowerTextBinds_text ran

/-- The same for the arguments of a function. -/
theorem renderExprs_text : ∀ (es : List Expr) {ordered later : List BindValue}
    {shown : List Str}, renderExprs crates values es ordered = .ok (shown, later) →
      shown = exprTexts es
  | [], _, _, _, ran => by
    rw [renderExprs] at ran
    exact pure_ok ran
  | e :: rest, _, _, _, ran => by
    rw [renderExprs] at ran
    obtain ⟨shown, pushed, first, more⟩ := bind_ok ran
    obtain ⟨others, between, tail, last⟩ := bind_ok more
    rw [pure_ok last, renderExpr_text e first, renderExprs_text rest tail, exprTexts]

end

/-- A filter renders to its text, by induction on the filter. -/
theorem renderPredicate_text (p : Predicate) {ordered later : List BindValue} {t : Str}
    (ran : renderPredicate crates values p ordered = .ok (t, later)) : t = predicateText p := by
  induction p generalizing ordered later t with
  | compare lhs op rhs =>
    rw [renderPredicate] at ran
    obtain ⟨l, pushed, left, more⟩ := bind_ok ran
    obtain ⟨r, between, right, last⟩ := bind_ok more
    rw [pure_ok last, renderExpr_text lhs left, renderExpr_text rhs right, predicateText]
  | inList expr items negated =>
    rw [renderPredicate] at ran
    obtain ⟨e, pushed, left, more⟩ := bind_ok ran
    obtain ⟨its, between, right, last⟩ := bind_ok more
    rw [pure_ok last, renderExpr_text expr left, renderExprs_text items right, predicateText]
  | and a b left right =>
    rw [renderPredicate] at ran
    obtain ⟨l, pushed, first, more⟩ := bind_ok ran
    obtain ⟨r, between, second, last⟩ := bind_ok more
    rw [pure_ok last, left first, right second, predicateText]
  | or a b left right =>
    rw [renderPredicate] at ran
    obtain ⟨l, pushed, first, more⟩ := bind_ok ran
    obtain ⟨r, between, second, last⟩ := bind_ok more
    rw [pure_ok last, left first, right second, predicateText]
  | not a inner =>
    rw [renderPredicate] at ran
    obtain ⟨i, pushed, first, last⟩ := bind_ok ran
    rw [pure_ok last, inner first, predicateText]
  | raw text =>
    rw [renderPredicate] at ran
    exact lowerTextBinds_text ran

/-- A join renders to its text. -/
theorem renderJoin_text {j : Join} {t : Str}
    (ran : renderJoin values j ordered = .ok (t, later)) : t = joinText j := by
  rw [renderJoin] at ran
  obtain ⟨on, pushed, first, last⟩ := bind_ok ran
  rw [pure_ok last, lowerTextBinds_text first, joinText]

/-- A limit renders to its text. -/
theorem renderLimit_text {lim : Limit} {t : Str}
    (ran : renderLimit values lim ordered = .ok (t, later)) : t = limitText lim := by
  cases lim with
  | lit n => exact pure_ok ran
  | bind name => exact pushBind_text ran

/-- A clause of conjuncts renders to its text, and to nothing without conjuncts. -/
theorem renderClause_text {keyword t : Str} {conj : List Predicate}
    (ran : renderClause crates values keyword conj ordered = .ok (t, later)) :
    t = clauseText keyword conj := by
  rw [renderClause] at ran
  rw [clauseText]
  split at ran
  · rename_i empty
    rw [if_pos empty]
    exact pure_ok ran
  · rename_i nonempty
    obtain ⟨shown, pushed, inner, last⟩ := bind_ok ran
    rw [renderConjuncts] at inner
    obtain ⟨parts, between, each, joined⟩ := bind_ok inner
    have texts : parts = conj.map predicateText :=
      mapM_ok (fun p _ _ _ _ shown => renderPredicate_text p shown) each
    rw [if_neg nonempty, pure_ok last, pure_ok joined, texts]

/-- A lowered query is its text. -/
theorem lowerIr_text {dialect : ClickHouseDialect} {ir : QueryIr} {bound : BoundSql}
    (lowered : dialect.lowerIr crates ir values = .ok bound) :
    bound.sql = queryText dialect ir := by
  rw [lowerIr] at lowered
  cases ran : renderQuery crates dialect ir values [] with
  | error e => simp [ran, Except.map] at lowered
  | ok out =>
    obtain rfl : (⟨out.1, out.2⟩ : BoundSql) = bound := by
      simpa [ran, Except.map] using lowered
    rw [renderQuery] at ran
    obtain ⟨items, pushed1, first, ran⟩ := bind_ok ran
    obtain ⟨joins, pushed2, second, ran⟩ := bind_ok ran
    obtain ⟨prewhere, pushed3, third, ran⟩ := bind_ok ran
    obtain ⟨where_, pushed4, fourth, ran⟩ := bind_ok ran
    have itemTexts : items = ir.select.map (fun item => questioned item.text) :=
      mapM_ok (fun item _ _ _ _ shown => lowerTextBinds_text shown) first
    have joinTexts : joins = ir.joins.map joinText :=
      mapM_ok (fun j _ _ _ _ shown => renderJoin_text shown) second
    have before := renderClause_text third
    have behind := renderClause_text fourth
    have spaced : (ir.joins.map (fun j => ' ' :: joinText j)) = joins.map (' ' :: ·) := by
      rw [joinTexts, List.map_map]
      rfl
    rw [queryText, spaced, ← itemTexts, ← before, ← behind, itemsText, itemsText, List.isEmpty_map]
    cases written : ir.limit with
    | none =>
      rw [written] at ran
      obtain ⟨limit, pushed5, nothing, last⟩ := bind_ok ran
      rw [pure_ok last, pure_ok nothing]
      rfl
    | some lim =>
      rw [written] at ran
      obtain ⟨shown, pushed5, inner, ran⟩ := bind_ok ran
      obtain ⟨limit, pushed6, written', last⟩ := bind_ok ran
      rw [pure_ok last, pure_ok written', renderLimit_text inner]
      rfl

end LumidPlatform.Read.Rendered
