import LumidPlatform.Read.Rendered

/-!
# A lowered query, segment by segment

What a lowering to ClickHouse writes is a list of segments in order: texts of its own, texts
that it copies, texts that it copies with their binds as question marks, and single binds. The
text and the values of a lowered query are read off its segments.
-/

namespace LumidPlatform.Read.Segments

open LumidPlatform.Read.Ir LumidPlatform.Read.Dialect Rendered
open LumidPlatform.Read.Dialect.ClickHouseDialect

/-- A part of a lowered statement, with what the lowering does to it. -/
inductive Segment where
  /-- A text of the lowering. -/
  | fixed (text : Str)
  /-- A text of the query that is copied as it is. -/
  | verbatim (text : Str)
  /-- A text of the query that is lowered. -/
  | lowered (text : Str)
  | bind (name : Str)

/-- A piece of a lowered text, as pieces of what is written. -/
def copied : Piece → List Piece
  | .char c => (Text.pushBytes c).map .char
  | .bind name => [.bind name]

/-- What is written: characters, and question marks for the binds. -/
def shown : Piece → Char
  | .char c => c
  | .bind _ => '?'

namespace Segment

/-- The pieces that are written. -/
def output : Segment → List Piece
  | fixed text => text.map .char
  | verbatim text => text.map .char
  | lowered text => (pieces text).flatMap copied
  | bind name => [.bind name]

/-- The pieces of the statement before it is lowered, where every text may have binds. -/
def source : Segment → List Piece
  | fixed text => text.map .char
  | verbatim text => pieces text
  | lowered text => pieces text
  | bind name => [.bind name]

/-- The text that is written. -/
def text : Segment → Str
  | fixed text => text
  | verbatim text => text
  | lowered text => questioned text
  | bind _ => ['?']

/-- The binds that are lowered. -/
def names : Segment → List Str
  | lowered text => bindNames text
  | bind name => [name]
  | _ => []

end Segment

/-! ## Segments of a query -/

/-- Segments with a text between them. -/
def join (between : Str) : List (List Segment) → List Segment
  | [] => []
  | [part] => part
  | part :: rest => part ++ .fixed between :: join between rest

mutual

/-- The segments of an expression, in the order in which they are written. -/
def exprSegments : Expr → List Segment
  | .col c => [.verbatim c]
  | .lit l => [.verbatim l]
  | .bind name => [.bind name]
  | .fn name args =>
    .verbatim name :: .fixed ['('] :: join ", ".str (exprsSegments args) ++ [.fixed [')']]
  | .cast expr ty =>
    .fixed "CAST(".str :: exprSegments expr ++ [.fixed (" AS ".str ++ ty.ch.getD [] ++ [')'])]
  | .raw t => [.lowered t]

/-- Those of the arguments of a function, kept apart. -/
def exprsSegments : List Expr → List (List Segment)
  | [] => []
  | e :: rest => exprSegments e :: exprsSegments rest

end

/-- Those of a filter. The brackets and the keywords belong to the lowering. -/
def predicateSegments : Predicate → List Segment
  | .compare lhs op rhs =>
    exprSegments lhs ++ .fixed (' ' :: op.sql ++ [' ']) :: exprSegments rhs
  | .inList expr items negated =>
    exprSegments expr ++
      .fixed (' ' :: (if negated then "NOT IN".str else "IN".str) ++ " (".str) ::
        join ", ".str (exprsSegments items) ++ [.fixed [')']]
  | .and a b =>
    .fixed ['('] :: predicateSegments a ++ .fixed " AND ".str :: predicateSegments b ++
      [.fixed [')']]
  | .or a b =>
    .fixed ['('] :: predicateSegments a ++ .fixed " OR ".str :: predicateSegments b ++
      [.fixed [')']]
  | .not a => .fixed "NOT (".str :: predicateSegments a ++ [.fixed [')']]
  | .raw t => [.lowered t]

/-- Those of a join: the table is copied, and its condition lowered. -/
def joinSegments (j : Join) : List Segment :=
  [.fixed (' ' :: j.kind.keyword ++ [' ']), .verbatim j.table.render, .fixed " ON ".str,
    .lowered j.on]

/-- A keyword and parts, or nothing. -/
def clauseSegments (keyword between : Str) (parts : List (List Segment)) : List Segment :=
  if parts.isEmpty then [] else .fixed keyword :: join between parts

/-- Those of a limit. -/
def limitSegments : Limit → List Segment
  | .lit n => [.fixed (" LIMIT ".str ++ Text.showInt n)]
  | .bind name => [.fixed " LIMIT ".str, .bind name]

/-- Those of a query, clause by clause. -/
def querySegments (dialect : ClickHouseDialect) (ir : QueryIr) : List Segment :=
  let hoisted := dialect.splitPrewhere ir.where_
  .fixed "SELECT ".str :: join ", ".str (ir.select.map (fun item => [.lowered item.text])) ++
    [.fixed " FROM ".str, .verbatim ir.from.render,
      .fixed (if dialect.final_ then " FINAL".str else [])] ++
    ir.joins.flatMap joinSegments ++
    clauseSegments " PREWHERE ".str " AND ".str (hoisted.1.map predicateSegments) ++
    clauseSegments " WHERE ".str " AND ".str (hoisted.2.map predicateSegments) ++
    clauseSegments " GROUP BY ".str ", ".str (ir.groupBy.map (fun s => [.verbatim s])) ++
    clauseSegments " ORDER BY ".str ", ".str
      (ir.orderBy.map (fun o => [.verbatim o.expr, .fixed (' ' :: o.dir.keyword)])) ++
    (ir.limit.map limitSegments).getD []

/-! ## The text -/

/-- What segments write. -/
def written (segments : List Segment) : Str := segments.flatMap Segment.text

/-- No segments are written as nothing. -/
@[simp]
theorem written_nil : written [] = [] := rfl

/-- Segments are written one after the other. -/
@[simp]
theorem written_append (first second : List Segment) :
    written (first ++ second) = written first ++ written second :=
  List.flatMap_append

/-- The same for one segment and the rest. -/
@[simp]
theorem written_cons (segment : Segment) (rest : List Segment) :
    written (segment :: rest) = segment.text ++ written rest :=
  List.flatMap_cons

/-- Segments that are joined by a keyword are written as the join of their texts. -/
theorem written_join (between : Str) (parts : List (List Segment)) :
    written (join between parts) = Text.join between (parts.map written) := by
  induction parts with
  | nil => rfl
  | cons part rest inductionHypothesis =>
    cases rest with
    | nil => simp [join, Text.join]
    | cons next more =>
      have cut : Text.join between ((part :: next :: more).map written) =
          written part ++ between ++ Text.join between ((next :: more).map written) := by
        simp [Text.join, List.intercalate_cons_cons]
      rw [cut, ← inductionHypothesis, join, written_append, written_cons, Segment.text,
        List.append_assoc]
      exact List.cons_ne_nil _ _

mutual

/-- The segments of an expression are written as its text, by induction on the expression. -/
theorem written_expr : ∀ e : Expr, written (exprSegments e) = exprText e
  | .col c => List.append_nil c
  | .lit l => List.append_nil l
  | .bind name => rfl
  | .fn name args => by
    rw [exprSegments, exprText, ← written_exprs args, ← written_join]
    simp [Segment.text]
  | .cast expr ty => by
    rw [exprSegments, exprText, ← written_expr expr]
    simp [Segment.text]
  | .raw t => List.append_nil (questioned t)

/-- The same for the arguments of a function. -/
theorem written_exprs : ∀ es : List Expr, (exprsSegments es).map written = exprTexts es
  | [] => rfl
  | e :: rest => by
    rw [exprsSegments, exprTexts, List.map_cons, written_expr e, written_exprs rest]

end

/-- The same for a filter, by induction on the filter. -/
theorem written_predicate (p : Predicate) : written (predicateSegments p) = predicateText p := by
  induction p with
  | compare lhs op rhs =>
    simp [predicateSegments, predicateText, written_expr, Segment.text]
  | inList expr items negated =>
    simp [predicateSegments, predicateText, written_expr, written_join, written_exprs,
      Segment.text]
  | and a b left right =>
    simp [predicateSegments, predicateText, left, right, Segment.text]
  | or a b left right =>
    simp [predicateSegments, predicateText, left, right, Segment.text]
  | not a inner =>
    simp [predicateSegments, predicateText, inner, Segment.text]
  | raw t => exact List.append_nil (questioned t)

/-- The same for a clause, which is not written without parts. -/
theorem written_clause (keyword between : Str) (parts : List (List Segment)) :
    written (clauseSegments keyword between parts) =
      if parts.isEmpty then [] else keyword ++ Text.join between (parts.map written) := by
  rw [clauseSegments]
  split_ifs
  · rfl
  · rw [written_cons, written_join, Segment.text]

/-- The segments of a query write its text. -/
theorem written_query (dialect : ClickHouseDialect) (ir : QueryIr) :
    written (querySegments dialect ir) = queryText dialect ir := by
  have items : (ir.select.map (fun item => [Segment.lowered item.text])).map written =
      ir.select.map (fun item => questioned item.text) := by
    rw [List.map_map]
    exact List.map_congr_left fun item _ => List.append_nil _
  have joins : written (ir.joins.flatMap joinSegments) =
      (ir.joins.map (fun j => ' ' :: joinText j)).flatten := by
    rw [written, List.flatMap_assoc, ← List.flatMap_def]
    exact List.flatMap_congr fun j _ => by simp [joinSegments, Segment.text, joinText]
  have predicates (conj : List Predicate) : (conj.map predicateSegments).map written =
      conj.map predicateText := by
    rw [List.map_map]
    exact List.map_congr_left fun p _ => written_predicate p
  have groups : (ir.groupBy.map (fun s => [Segment.verbatim s])).map written = ir.groupBy := by
    rw [List.map_map]
    exact (List.map_congr_left fun s _ => List.append_nil s).trans (List.map_id ir.groupBy)
  have orders : (ir.orderBy.map (fun o =>
      [Segment.verbatim o.expr, .fixed (' ' :: o.dir.keyword)])).map written =
        ir.orderBy.map renderOrder := by
    rw [List.map_map]
    exact List.map_congr_left fun o _ => by simp [Segment.text, renderOrder]
  have limits : written ((ir.limit.map limitSegments).getD []) =
      (ir.limit.map (fun lim => " LIMIT ".str ++ limitText lim)).getD [] := by
    cases ir.limit with
    | none => rfl
    | some lim =>
      cases lim with
      | lit n => simp [limitSegments, Segment.text, limitText]
      | bind name => simp [limitSegments, Segment.text, limitText]
  rw [querySegments, queryText]
  simp only [written_append, written_cons, written_nil, written_clause, written_join, items, joins,
    predicates, groups, orders, limits, Segment.text, clauseText, itemsText, List.isEmpty_map,
    List.append_nil, List.append_assoc]

/-! ## The values -/

/-- The binds that segments lower, in order. -/
def boundNames (segments : List Segment) : List Str := segments.flatMap Segment.names

/-- No segments push nothing. -/
@[simp]
theorem boundNames_nil : boundNames [] = [] := rfl

/-- Binds are pushed from left to right. -/
@[simp]
theorem boundNames_append (first second : List Segment) :
    boundNames (first ++ second) = boundNames first ++ boundNames second :=
  List.flatMap_append

/-- The same for one segment and the rest. -/
@[simp]
theorem boundNames_cons (segment : Segment) (rest : List Segment) :
    boundNames (segment :: rest) = segment.names ++ boundNames rest :=
  List.flatMap_cons

/-- The keyword between segments pushes nothing. -/
theorem boundNames_join (between : Str) (parts : List (List Segment)) :
    boundNames (join between parts) = parts.flatMap boundNames := by
  induction parts with
  | nil => rfl
  | cons part rest inductionHypothesis =>
    cases rest with
    | nil => simp [join]
    | cons next more =>
      rw [join, boundNames_append, boundNames_cons, inductionHypothesis, List.flatMap_cons]
      · rfl
      · exact List.cons_ne_nil next more

/-- Nor does the keyword of a clause. -/
theorem boundNames_clause (keyword between : Str) (parts : List (List Segment)) :
    boundNames (clauseSegments keyword between parts) = parts.flatMap boundNames := by
  rw [clauseSegments]
  cases parts with
  | nil => rfl
  | cons part rest =>
    rw [if_neg (by simp), boundNames_cons, boundNames_join]
    rfl

/-- The values of the names are pushed behind those that are there. -/
def Pushes (values : HashMap BindValue) (ordered later : List BindValue) (names : List Str) :
    Prop :=
  later.map some = ordered.map some ++ names.map values.lookup

section Pushing

variable {T : Type} {crates : Crates} {values : HashMap BindValue}
  {ordered between later : List BindValue} {names others : List Str}

/-- A step that changes nothing pushes no bind. -/
theorem Pushes.none (ordered : List BindValue) : Pushes values ordered ordered [] :=
  (List.append_nil _).symm

/-- What two steps push one after the other. -/
theorem Pushes.append (first : Pushes values ordered between names)
    (second : Pushes values between later others) :
    Pushes values ordered later (names ++ others) := by
  rw [Pushes] at first second ⊢
  rw [second, first, List.map_append, List.append_assoc]

/-- A finished value pushes no bind. -/
theorem pure_pushes {value result : T}
    (ran : (pure value : Render T) ordered = .ok (result, later)) :
    Pushes values ordered later [] := by
  obtain ⟨-, rfl⟩ := Prod.mk.inj (Except.ok.inj ran)
  exact .none ordered

/-- A bind that is found is pushed. -/
theorem pushBind_pushes {name t : Str} (ran : pushBind values name ordered = .ok (t, later)) :
    Pushes values ordered later [name] := by
  rw [pushBind] at ran
  split at ran
  · rename_i v found
    obtain ⟨-, rfl⟩ := Prod.mk.inj (Except.ok.inj ran)
    simp [Pushes, found]
  · cases ran

/-- A lowered text pushes its binds as they come in it, by induction on its pieces. -/
theorem lowerTextBinds_pushes {text t : Str}
    (ran : lowerTextBinds values text ordered = .ok (t, later)) :
    Pushes values ordered later (bindNames text) := by
  rw [lowerTextBinds, lowerScan_eq_lowerPieces] at ran
  exact lowerPieces_values ran

/-- Renderings one after the other push the names of every element. -/
theorem mapM_pushes {X : Type} {render : X → Render T} {namesOf : X → List Str} {xs : List X}
    {shown : List T}
    (each : ∀ x ∈ xs, ∀ {ordered later t}, render x ordered = .ok (t, later) →
      Pushes values ordered later (namesOf x))
    (ran : xs.mapM render ordered = .ok (shown, later)) :
    Pushes values ordered later (xs.flatMap namesOf) := by
  induction xs generalizing ordered later shown with
  | nil =>
    rw [List.mapM_nil] at ran
    exact pure_pushes ran
  | cons x rest inductionHypothesis =>
    rw [List.mapM_cons] at ran
    obtain ⟨head, pushed, first, more⟩ := bind_ok ran
    obtain ⟨tail, pushed', second, last⟩ := bind_ok more
    have here := each x List.mem_cons_self first
    have behind := inductionHypothesis
      (fun y member => each y (List.mem_cons_of_mem x member)) second
    have done : Pushes values ordered later ((namesOf x ++ rest.flatMap namesOf) ++ []) :=
      (here.append behind).append (pure_pushes last)
    rwa [List.append_nil, ← List.flatMap_cons] at done

mutual

/-- Rendering an expression pushes the binds of its segments, by induction on the expression. -/
theorem renderExpr_pushes : ∀ (e : Expr) {ordered later : List BindValue} {t : Str},
    renderExpr crates values e ordered = .ok (t, later) →
      Pushes values ordered later (boundNames (exprSegments e))
  | .col c, _, _, _, ran => by
    rw [renderExpr] at ran
    exact pure_pushes ran
  | .lit l, _, _, _, ran => by
    rw [renderExpr] at ran
    exact pure_pushes ran
  | .bind name, _, _, _, ran => by
    rw [renderExpr] at ran
    exact pushBind_pushes ran
  | .fn name args, _, _, _, ran => by
    rw [renderExpr] at ran
    obtain ⟨shown, pushed, inner, last⟩ := bind_ok ran
    have pushes := (renderExprs_pushes args inner).append (pure_pushes last)
    simpa [exprSegments, Segment.names, boundNames_join] using pushes
  | .cast expr ty, _, _, _, ran => by
    rw [renderExpr] at ran
    obtain ⟨shown, pushed, inner, last⟩ := bind_ok ran
    cases known : ty.ch with
    | none =>
      rw [known] at last
      cases last
    | some chTy =>
      rw [known] at last
      have pushes := (renderExpr_pushes expr inner).append (pure_pushes last)
      simpa [exprSegments, Segment.names] using pushes
  | .raw t, _, _, _, ran => by
    rw [renderExpr] at ran
    simpa [exprSegments, Segment.names] using lowerTextBinds_pushes ran

/-- The same for the arguments of a function. -/
theorem renderExprs_pushes : ∀ (es : List Expr) {ordered later : List BindValue}
    {shown : List Str}, renderExprs crates values es ordered = .ok (shown, later) →
      Pushes values ordered later ((exprsSegments es).flatMap boundNames)
  | [], _, _, _, ran => by
    rw [renderExprs] at ran
    exact pure_pushes ran
  | e :: rest, _, _, _, ran => by
    rw [renderExprs] at ran
    obtain ⟨shown, pushed, first, more⟩ := bind_ok ran
    obtain ⟨others, between, tail, last⟩ := bind_ok more
    have pushes := ((renderExpr_pushes e first).append (renderExprs_pushes rest tail)).append
      (pure_pushes last)
    simpa [exprsSegments] using pushes

end

/-- The same for a filter. -/
theorem renderPredicate_pushes (p : Predicate) {ordered later : List BindValue} {t : Str}
    (ran : renderPredicate crates values p ordered = .ok (t, later)) :
    Pushes values ordered later (boundNames (predicateSegments p)) := by
  induction p generalizing ordered later t with
  | compare lhs op rhs =>
    rw [renderPredicate] at ran
    obtain ⟨l, pushed, left, more⟩ := bind_ok ran
    obtain ⟨r, between, right, last⟩ := bind_ok more
    have pushes := ((renderExpr_pushes lhs left).append (renderExpr_pushes rhs right)).append
      (pure_pushes last)
    simpa [predicateSegments, Segment.names] using pushes
  | inList expr items negated =>
    rw [renderPredicate] at ran
    obtain ⟨e, pushed, left, more⟩ := bind_ok ran
    obtain ⟨its, between, right, last⟩ := bind_ok more
    have pushes := ((renderExpr_pushes expr left).append (renderExprs_pushes items right)).append
      (pure_pushes last)
    simpa [predicateSegments, Segment.names, boundNames_join] using pushes
  | and a b left right =>
    rw [renderPredicate] at ran
    obtain ⟨l, pushed, first, more⟩ := bind_ok ran
    obtain ⟨r, between, second, last⟩ := bind_ok more
    have pushes := ((left first).append (right second)).append (pure_pushes last)
    simpa [predicateSegments, Segment.names] using pushes
  | or a b left right =>
    rw [renderPredicate] at ran
    obtain ⟨l, pushed, first, more⟩ := bind_ok ran
    obtain ⟨r, between, second, last⟩ := bind_ok more
    have pushes := ((left first).append (right second)).append (pure_pushes last)
    simpa [predicateSegments, Segment.names] using pushes
  | not a inner =>
    rw [renderPredicate] at ran
    obtain ⟨i, pushed, first, last⟩ := bind_ok ran
    have pushes := (inner first).append (pure_pushes last)
    simpa [predicateSegments, Segment.names] using pushes
  | raw text =>
    rw [renderPredicate] at ran
    simpa [predicateSegments, Segment.names] using lowerTextBinds_pushes ran

/-- The same for a join. -/
theorem renderJoin_pushes {j : Join} {t : Str}
    (ran : renderJoin values j ordered = .ok (t, later)) :
    Pushes values ordered later (boundNames (joinSegments j)) := by
  rw [renderJoin] at ran
  obtain ⟨on, pushed, first, last⟩ := bind_ok ran
  have pushes := (lowerTextBinds_pushes first).append (pure_pushes last)
  simpa [joinSegments, Segment.names] using pushes

/-- The same for a limit. -/
theorem renderLimit_pushes {lim : Limit} {t : Str}
    (ran : renderLimit values lim ordered = .ok (t, later)) :
    Pushes values ordered later (boundNames (limitSegments lim)) := by
  cases lim with
  | lit n => exact pure_pushes ran
  | bind name => exact pushBind_pushes ran

/-- The same for the conjuncts of a clause. -/
theorem renderClause_pushes {keyword t : Str} {conj : List Predicate}
    (ran : renderClause crates values keyword conj ordered = .ok (t, later)) :
    Pushes values ordered later (conj.flatMap (fun p => boundNames (predicateSegments p))) := by
  rw [renderClause] at ran
  split at ran
  · rename_i empty
    rw [List.isEmpty_iff.mp empty]
    exact pure_pushes ran
  · obtain ⟨shown, pushed, inner, last⟩ := bind_ok ran
    rw [renderConjuncts] at inner
    obtain ⟨parts, between, each, joined⟩ := bind_ok inner
    have conjuncts := mapM_pushes (fun p _ _ _ _ rendered => renderPredicate_pushes p rendered) each
    have pushes := (conjuncts.append (pure_pushes joined)).append (pure_pushes last)
    simpa using pushes

/-- The binds of a query, clause by clause. -/
theorem boundNames_query (dialect : ClickHouseDialect) (ir : QueryIr) :
    boundNames (querySegments dialect ir) =
      ir.select.flatMap (fun item => bindNames item.text) ++
        ir.joins.flatMap (fun j => boundNames (joinSegments j)) ++
        (dialect.splitPrewhere ir.where_).1.flatMap (fun p => boundNames (predicateSegments p)) ++
        (dialect.splitPrewhere ir.where_).2.flatMap (fun p => boundNames (predicateSegments p)) ++
        boundNames ((ir.limit.map limitSegments).getD []) := by
  have joins : boundNames (ir.joins.flatMap joinSegments) =
      ir.joins.flatMap (fun j => boundNames (joinSegments j)) := List.flatMap_assoc
  have nothing (α : Type) (xs : List α) : xs.flatMap (fun _ => ([] : List Str)) = [] :=
    List.flatMap_eq_nil_iff.mpr fun _ _ => rfl
  simp [querySegments, boundNames_clause, boundNames_join, joins, Segment.names, List.flatMap_map,
    nothing]

/-- A query is lowered with the values of its segments' binds. -/
theorem lowerIr_values {dialect : ClickHouseDialect} {ir : QueryIr} {bound : BoundSql}
    (lowered : dialect.lowerIr crates ir values = .ok bound) :
    bound.values.map some = (boundNames (querySegments dialect ir)).map values.lookup := by
  rw [lowerIr] at lowered
  cases ran : renderQuery crates dialect ir values [] with
  | error e => simp [ran, Except.map] at lowered
  | ok out =>
    obtain rfl : (⟨out.1, out.2⟩ : BoundSql) = bound := by
      simpa [ran, Except.map] using lowered
    rw [renderQuery] at ran
    obtain ⟨items, pushed1, first, ran⟩ := bind_ok ran
    obtain ⟨joins, pushed2, second, ran⟩ := bind_ok ran
    obtain ⟨prewhere, pushed3, third, ran⟩ := bind_ok ran
    obtain ⟨where_, pushed4, fourth, ran⟩ := bind_ok ran
    have selected : Pushes values [] pushed1
        (ir.select.flatMap (fun item => bindNames item.text)) :=
      mapM_pushes (fun item _ _ _ _ rendered => lowerTextBinds_pushes rendered) first
    have joined := mapM_pushes (fun j _ _ _ _ rendered => renderJoin_pushes rendered) second
    have before := ((selected.append joined).append (renderClause_pushes third)).append
      (renderClause_pushes fourth)
    rw [boundNames_query]
    cases given : ir.limit with
    | none =>
      rw [given] at ran
      obtain ⟨limit, pushed5, nothing, last⟩ := bind_ok ran
      exact before.append ((pure_pushes nothing).append (pure_pushes last))
    | some lim =>
      rw [given] at ran
      obtain ⟨shown, pushed5, inner, ran⟩ := bind_ok ran
      obtain ⟨limit, pushed6, written', last⟩ := bind_ok ran
      have limited := (renderLimit_pushes inner).append
        ((pure_pushes written').append (pure_pushes last))
      simp only [List.append_nil] at limited
      exact before.append limited

end Pushing

end LumidPlatform.Read.Segments
