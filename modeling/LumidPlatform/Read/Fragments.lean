import Mathlib.Data.List.Chain
import LumidPlatform.Read.Exec
import LumidPlatform.Read.Parse
import LumidPlatform.Read.Rendered

/-!
# Fragments and ClickHouse

The query that ClickHouse is sent is read once, from the template with its markers. What a
request chooses is written into the text for Postgres only. The two agree where the reader
drops every marker and reads the written text as it reads the template, and where the fragments
that are chosen say nothing.
-/

namespace LumidPlatform.Read.Fragments

open LumidPlatform.Read.Ir LumidPlatform.Read.Spec LumidPlatform.Read.Dialect
  LumidPlatform.Read.Bind LumidPlatform.Read.Exec LumidPlatform.Read.Rendered

/-! ## Texts without markers -/

/-- No two opening braces stand together. -/
def Unbraced (s : Str) : Prop := s.IsChain (fun c d => ¬(c = '{' ∧ d = '{'))

/-- It is the search for two braces in a row. -/
theorem unbraced_iff (s : Str) : Unbraced s ↔ Text.contains s ['{', '{'] = false := by
  induction s with
  | nil => exact iff_of_true .nil (by decide)
  | cons c rest inductionHypothesis =>
    have opens : Text.contains (c :: rest) ['{', '{'] =
        (Text.startsWith (c :: rest) ['{', '{'] || Text.contains rest ['{', '{']) := by
      simp [Text.contains]
    rw [opens, Bool.or_eq_false_iff, ← inductionHypothesis, Unbraced, Unbraced]
    cases rest with
    | nil =>
      have short : Text.startsWith [c] ['{', '{'] = ('{' == c && false) := rfl
      simp [short]
    | cons d more =>
      have first : Text.startsWith (c :: d :: more) ['{', '{'] =
          ('{' == c && ('{' == d && true)) := rfl
      have same : Text.startsWith (c :: d :: more) ['{', '{'] = false ↔ ¬(c = '{' ∧ d = '{') := by
        rw [first, Bool.and_true, Bool.and_eq_false_iff, beq_eq_false_iff_ne, beq_eq_false_iff_ne,
          not_and_or, ne_comm, ne_comm (a := '{') (b := d)]
      rw [List.isChain_cons_cons, same]

/-- A text that has characters, and no opening brace among them. -/
def Solid (s : Str) : Prop := '{' ∉ s ∧ s ≠ []

instance (s : Str) : Decidable (Solid s) := inferInstanceAs (Decidable (_ ∧ _))

/-- The texts of the lowering are written as strings. -/
theorem Solid.str {chars : List Char} (solid : Solid chars) : Solid (String.ofList chars).str := by
  rwa [String.str_ofList]

/-- A solid text stays solid when a text without braces follows it. -/
theorem Solid.append {s t : Str} (first : Solid s) (rest : '{' ∉ t) : Solid (s ++ t) :=
  ⟨fun member => (List.mem_append.mp member).elim first.1 rest,
    List.append_ne_nil_of_left_ne_nil first.2 t⟩

/-- The same for a character in front. -/
theorem Solid.cons {c : Char} {s : Str} (other : c ≠ '{') (rest : '{' ∉ s) : Solid (c :: s) :=
  ⟨fun member => (List.mem_cons.mp member).elim other.symm rest, List.cons_ne_nil c s⟩

/-- Around a solid text, the two sides count by themselves. -/
theorem unbraced_around {between : Str} (solid : Solid between) (before after : Str) :
    Unbraced (before ++ between ++ after) ↔ Unbraced before ∧ Unbraced after := by
  obtain ⟨absent, nonempty⟩ := solid
  have inside : Unbraced between := by
    apply List.isChain_iff_forall_rel_of_append_cons_cons.mpr
    rintro c d l₁ l₂ rfl ⟨rfl, -⟩
    exact absent (by simp)
  rw [Unbraced, List.isChain_append, List.isChain_append]
  constructor
  · rintro ⟨⟨left, -, -⟩, right, -⟩
    exact ⟨left, right⟩
  · rintro ⟨left, right⟩
    refine ⟨⟨left, inside, ?_⟩, right, ?_⟩
    · rintro c - d first ⟨-, rfl⟩
      exact absent (List.mem_of_mem_head? first)
    · rintro c last d - ⟨rfl, -⟩
      rw [List.getLast?_append_of_ne_nil _ nonempty] at last
      exact absent (List.mem_of_mem_getLast? last)

/-- Between solid keywords no two braces meet, so only the parts can have them. -/
theorem unbraced_join {between : Str} (solid : Solid between) (parts : List Str) :
    Unbraced (Text.join between parts) ↔ ∀ part ∈ parts, Unbraced part := by
  induction parts with
  | nil => simp [Text.join, Unbraced]
  | cons part rest inductionHypothesis =>
    cases rest with
    | nil => simp [Text.join]
    | cons next more =>
      have cut : Text.join between (part :: next :: more) =
          part ++ between ++ Text.join between (next :: more) := by
        simp [Text.join, List.intercalate_cons_cons]
      rw [cut, unbraced_around solid, inductionHypothesis, List.forall_mem_cons (a := part)]

/-- Two braces begin with the first character, or are in the rest. -/
theorem unbraced_cons (c : Char) (s : Str) :
    Unbraced (c :: s) ↔ ¬(c = '{' ∧ s.head? = some '{') ∧ Unbraced s := by
  rw [Unbraced, List.isChain_cons]
  refine and_congr_left (fun _ => ?_)
  constructor
  · rintro apart ⟨here, next⟩
    exact apart '{' next ⟨here, rfl⟩
  · rintro apart d next ⟨here, rfl⟩
    exact apart ⟨here, next⟩

/-- A solid text in front of another neither has two braces nor begins them. -/
theorem unbraced_skip {front : Str} (solid : Solid front) (s : Str) :
    Unbraced (front ++ s) ↔ Unbraced s := by
  have cut := unbraced_around solid [] s
  rw [List.nil_append] at cut
  exact cut.trans (and_iff_right .nil)

/-- Writing out a text neither makes nor hides two braces. -/
theorem unbraced_pieces : ∀ (length : Nat) (prevColon : Bool) (s : Str), s.length ≤ length →
    ((((piecesFrom prevColon 0 s).flatMap pieceText).head? = some '{' ↔ s.head? = some '{') ∧
      (Unbraced ((piecesFrom prevColon 0 s).flatMap pieceText) ↔ Unbraced s)) := by
  intro length
  induction length with
  | zero =>
    intro prevColon s short
    obtain rfl := List.eq_nil_of_length_eq_zero (Nat.le_zero.mp short)
    exact ⟨Iff.rfl, Iff.rfl⟩
  | succ length inductionHypothesis =>
    intro prevColon s short
    cases s with
    | nil => exact ⟨Iff.rfl, Iff.rfl⟩
    | cons c rest =>
      rw [List.length_cons] at short
      rcases piecesFrom_cases prevColon c rest with
        ⟨-, cut⟩ | ⟨name, after, rfl, -, rfl, bindName, -, cut⟩
      · obtain ⟨next, tail⟩ := inductionHypothesis (c == ':') rest (by omega)
        rw [cut, List.flatMap_cons, pieceText, unbraced_cons c rest]
        by_cases ascii : Text.isAscii c = true
        · rw [Text.pushBytes_ascii ascii, List.singleton_append, unbraced_cons, next, tail]
          exact ⟨Iff.rfl, Iff.rfl⟩
        · have foreign := Text.pushBytes_foreign (Bool.eq_false_iff.mpr ascii)
          have other : c ≠ '{' := by
            rintro rfl
            exact ascii (by decide)
          have absent : '{' ∉ Text.pushBytes c := by
            intro member
            exact absurd (foreign '{' member) (by decide)
          have nonempty := Text.pushBytes_ne_nil c
          rw [unbraced_skip ⟨absent, nonempty⟩, tail]
          refine ⟨?_, by simp [other]⟩
          rw [List.head?_append_of_ne_nil _ nonempty]
          refine iff_of_false (fun first => absent (List.mem_of_mem_head? first)) (by simp [other])
      · obtain ⟨-, tail⟩ := inductionHypothesis false after (by
          simp only [List.length_append] at short
          omega)
        have solid : Solid (':' :: name) := by
          refine .cons (by decide) fun member => ?_
          exact absurd (bindName.ident '{' member) (by decide)
        have whole := unbraced_skip solid after
        rw [List.cons_append] at whole
        rw [cut, List.flatMap_cons, pieceText, whole, ← tail]
        exact ⟨by simp, unbraced_skip (by decide) _⟩

/-- Replacing binds neither makes nor removes two braces in a row. -/
theorem unbraced_questioned (s : Str) : Unbraced (questioned s) ↔ Unbraced s :=
  (unbraced_pieces s.length false s (Nat.le_refl _)).2

/-! ## What a query keeps -/

mutual

/-- The texts of an expression that are written out as they are, up to binds. -/
def keptOf : Expr → List Str
  | .col c => [c]
  | .lit l => [l]
  | .bind _ => []
  | .fn name args => name :: keptOfAll args
  | .cast expr _ => keptOf expr
  | .raw t => [t]

/-- Those of the arguments of a function. -/
def keptOfAll : List Expr → List Str
  | [] => []
  | e :: rest => keptOf e ++ keptOfAll rest

end

/-- Those of a filter. Its operators are the lowering's own. -/
def keptOfPredicate : Predicate → List Str
  | .compare lhs _ rhs => keptOf lhs ++ keptOf rhs
  | .inList expr items _ => keptOf expr ++ keptOfAll items
  | .and a b => keptOfPredicate a ++ keptOfPredicate b
  | .or a b => keptOfPredicate a ++ keptOfPredicate b
  | .not a => keptOfPredicate a
  | .raw t => [t]

/-- The texts of a query. -/
def kept (ir : QueryIr) : List Str :=
  ir.select.map SelectItem.text ++ ir.from.render ::
    ir.joins.flatMap (fun j => [j.table.render, j.on]) ++ ir.where_.flatMap keptOfPredicate ++
    ir.groupBy ++ ir.orderBy.map OrderItem.expr

/-- No marker has reached the query. -/
def Markerless (ir : QueryIr) : Prop := ∀ text ∈ kept ir, Text.contains text ['{', '{'] = false

instance (ir : QueryIr) : Decidable (Markerless ir) :=
  inferInstanceAs (Decidable (∀ text ∈ kept ir, Text.contains text ['{', '{'] = false))

/-- No known type is spelled with a brace. -/
theorem chType_solid {ty : IrType} {shown : Str} (known : ty.ch = some shown) : '{' ∉ shown := by
  cases ty with
  | int8 | float8 | text | bool =>
    obtain rfl := Option.some.inj known
    decide
  | other spelling => cases known

/-- A solid text behind another changes nothing either. -/
theorem unbraced_closed {back : Str} (solid : Solid back) (s : Str) :
    Unbraced (s ++ back) ↔ Unbraced s := by
  have cut := unbraced_around solid s []
  rw [List.append_nil] at cut
  exact cut.trans (and_iff_left .nil)

mutual

/-- An expression is written without two braces exactly if its kept texts have none, by induction on
the expression. -/
theorem unbraced_expr : ∀ e : Expr, Unbraced (exprText e) ↔ ∀ text ∈ keptOf e, Unbraced text
  | .col c => by simp [exprText, keptOf]
  | .lit l => by simp [exprText, keptOf]
  | .bind name => by simp [exprText, keptOf, Unbraced]
  | .fn name args => by
    have shape : exprText (.fn name args) =
        name ++ ['('] ++ (Text.join ", ".str (exprTexts args) ++ [')']) := by
      simp [exprText]
    rw [shape, unbraced_around (by decide), unbraced_closed (by decide),
      unbraced_join (.str (by decide)), unbraced_exprs args, keptOf, List.forall_mem_cons]
  | .cast expr ty => by
    have absent : '{' ∉ ty.ch.getD [] ++ [')'] := by
      cases known : ty.ch with
      | none => decide
      | some shown =>
        have solid := chType_solid known
        simp only [Option.getD_some, List.mem_append, List.mem_singleton, not_or]
        exact ⟨solid, by decide⟩
    have solid : Solid (" AS ".str ++ (ty.ch.getD [] ++ [')'])) := .append (.str (by decide)) absent
    have shape : exprText (.cast expr ty) =
        "CAST(".str ++ (exprText expr ++ (" AS ".str ++ (ty.ch.getD [] ++ [')']))) := by
      simp [exprText]
    rw [shape, unbraced_skip (.str (by decide)), unbraced_closed solid, unbraced_expr expr, keptOf]
  | .raw t => by
    rw [exprText, unbraced_questioned, keptOf, List.forall_mem_singleton]

/-- The same for the arguments of a function. -/
theorem unbraced_exprs : ∀ es : List Expr,
    (∀ text ∈ exprTexts es, Unbraced text) ↔ ∀ text ∈ keptOfAll es, Unbraced text
  | [] => by simp [exprTexts, keptOfAll]
  | e :: rest => by
    rw [exprTexts, List.forall_mem_cons, unbraced_expr e, unbraced_exprs rest, keptOfAll,
      List.forall_mem_append]

end

/-- The same for a filter. -/
theorem unbraced_predicate (p : Predicate) :
    Unbraced (predicateText p) ↔ ∀ text ∈ keptOfPredicate p, Unbraced text := by
  induction p with
  | compare lhs op rhs =>
    have solid : Solid (' ' :: (op.sql ++ [' '])) := by
      cases op <;> decide
    have shape : predicateText (.compare lhs op rhs) =
        exprText lhs ++ (' ' :: (op.sql ++ [' '])) ++ exprText rhs := by
      simp [predicateText]
    rw [shape, unbraced_around solid, unbraced_expr, unbraced_expr, keptOfPredicate,
      List.forall_mem_append]
  | inList expr items negated =>
    have solid : Solid (' ' :: ((if negated then "NOT IN".str else "IN".str) ++ " (".str)) := by
      cases negated <;> decide
    have shape : predicateText (.inList expr items negated) =
        exprText expr ++ (' ' :: ((if negated then "NOT IN".str else "IN".str) ++ " (".str)) ++
          (Text.join ", ".str (exprTexts items) ++ [')']) := by
      simp [predicateText]
    rw [shape, unbraced_around solid, unbraced_closed (by decide),
      unbraced_join (.str (by decide)), unbraced_expr, unbraced_exprs, keptOfPredicate,
      List.forall_mem_append]
  | and a b left right =>
    have shape : predicateText (.and a b) =
        ['('] ++ (predicateText a ++ " AND ".str ++ predicateText b ++ [')']) := by
      simp [predicateText]
    rw [shape, unbraced_skip (by decide), unbraced_closed (by decide),
      unbraced_around (.str (by decide)), left, right, keptOfPredicate,
      List.forall_mem_append]
  | or a b left right =>
    have shape : predicateText (.or a b) =
        ['('] ++ (predicateText a ++ " OR ".str ++ predicateText b ++ [')']) := by
      simp [predicateText]
    rw [shape, unbraced_skip (by decide), unbraced_closed (by decide),
      unbraced_around (.str (by decide)), left, right, keptOfPredicate,
      List.forall_mem_append]
  | not a inner =>
    have shape : predicateText (.not a) = "NOT (".str ++ (predicateText a ++ [')']) := by
      simp [predicateText]
    rw [shape, unbraced_skip (.str (by decide)), unbraced_closed (by decide), inner,
      keptOfPredicate]
  | raw t => rw [predicateText, unbraced_questioned, keptOfPredicate, List.forall_mem_singleton]

/-- What follows begins with no brace. -/
theorem unbraced_append {after : Str} (next : after.head? ≠ some '{') (before : Str) :
    Unbraced (before ++ after) ↔ Unbraced before ∧ Unbraced after := by
  rw [Unbraced, List.isChain_append]
  refine and_congr_right (fun _ => and_iff_left ?_)
  rintro c - d first ⟨-, rfl⟩
  exact next first

/-- The same for a clause. -/
theorem unbraced_clause {keyword : Str} (solid : Solid keyword) (conj : List Predicate) :
    Unbraced (clauseText keyword conj) ↔
      ∀ text ∈ conj.flatMap keptOfPredicate, Unbraced text := by
  rw [clauseText]
  cases conj with
  | nil => exact iff_of_true .nil (by simp)
  | cons p rest =>
    rw [if_neg (by simp), unbraced_skip solid, unbraced_join (.str (by decide))]
    simp only [List.forall_mem_map, unbraced_predicate, List.forall_mem_flatMap]

/-- The same for a list of items. -/
theorem unbraced_items {keyword : Str} (solid : Solid keyword) (items : List Str) :
    Unbraced (itemsText keyword items) ↔ ∀ text ∈ items, Unbraced text := by
  rw [itemsText]
  cases items with
  | nil => exact iff_of_true .nil (by simp)
  | cons item rest =>
    rw [if_neg (by simp), unbraced_skip solid, unbraced_join (.str (by decide))]

/-- A clause begins with its keyword, if at all. -/
theorem head_clause {keyword : Str} (solid : Solid keyword) (conj : List Predicate) :
    (clauseText keyword conj).head? ≠ some '{' := by
  rw [clauseText]
  split
  · simp
  · rw [List.head?_append_of_ne_nil _ solid.2]
    exact fun first => solid.1 (List.mem_of_mem_head? first)

/-- So does a list of items. -/
theorem head_items {keyword : Str} (solid : Solid keyword) (items : List Str) :
    (itemsText keyword items).head? ≠ some '{' := by
  rw [itemsText]
  split
  · simp
  · rw [List.head?_append_of_ne_nil _ solid.2]
    exact fun first => solid.1 (List.mem_of_mem_head? first)

/-- So do the joins. -/
theorem head_joins (joins : List Join) :
    ((joins.map (fun j => ' ' :: joinText j)).flatten).head? ≠ some '{' := by
  cases joins with
  | nil => simp
  | cons j rest => simp

/-- The joins have two braces in a row only inside a table or a condition. -/
theorem unbraced_joins (joins : List Join) :
    Unbraced ((joins.map (fun j => ' ' :: joinText j)).flatten) ↔
      ∀ text ∈ joins.flatMap (fun j => [j.table.render, j.on]), Unbraced text := by
  induction joins with
  | nil => exact iff_of_true .nil (by simp)
  | cons j rest inductionHypothesis =>
    have keyword : Solid (' ' :: (j.kind.keyword ++ [' '])) := by
      cases j.kind <;> decide
    have shape : ' ' :: joinText j =
        (' ' :: (j.kind.keyword ++ [' '])) ++
          (j.table.render ++ " ON ".str ++ questioned j.on) := by
      simp [joinText]
    rw [List.map_cons, List.flatten_cons, unbraced_append (head_joins rest), inductionHypothesis,
      shape, unbraced_skip keyword, unbraced_around (.str (by decide)),
      unbraced_questioned, List.flatMap_cons, List.forall_mem_append, List.forall_mem_cons,
      List.forall_mem_singleton]

/-- A limit never has. -/
theorem unbraced_limit (limit : Option Limit) :
    Unbraced ((limit.map (fun lim => " LIMIT ".str ++ limitText lim)).getD []) ∧
      ((limit.map (fun lim => " LIMIT ".str ++ limitText lim)).getD []).head? ≠ some '{' := by
  cases limit with
  | none => exact ⟨.nil, by simp⟩
  | some lim =>
    have absent : '{' ∉ limitText lim := by
      have digits (n : Nat) : '{' ∉ Text.showNat n := by
        intro member
        exact absurd (Text.isDigit_of_mem_showNat member) (by decide)
      cases lim with
      | bind name => exact (by decide : '{' ∉ (['?'] : Str))
      | lit n =>
        cases n with
        | ofNat n => exact digits n
        | negSucc n =>
          rw [limitText, Text.showInt, List.mem_cons, not_or]
          exact ⟨by decide, digits (n + 1)⟩
    have solid : Solid (" LIMIT ".str ++ limitText lim) := .append (.str (by decide)) absent
    have whole := unbraced_skip solid []
    rw [List.append_nil] at whole
    exact ⟨whole.mpr .nil, fun first => solid.1 (List.mem_of_mem_head? first)⟩

/-- The direction adds no braces to an order key. -/
theorem unbraced_order (items : List OrderItem) :
    (∀ text ∈ items.map ClickHouseDialect.renderOrder, Unbraced text) ↔
      ∀ text ∈ items.map OrderItem.expr, Unbraced text := by
  simp only [List.forall_mem_map]
  refine forall₂_congr (fun item _ => ?_)
  have solid : Solid (' ' :: item.dir.keyword) := by
    cases item.dir <;> decide
  exact unbraced_closed solid item.expr

/-- A lowered query has a marker exactly if one of its texts does. -/
theorem unbraced_query (dialect : ClickHouseDialect) (ir : QueryIr) :
    Unbraced (queryText dialect ir) ↔ ∀ text ∈ kept ir, Unbraced text := by
  have conjuncts : (∀ text ∈ ir.where_.flatMap keptOfPredicate, Unbraced text) ↔
      (∀ text ∈ (dialect.splitPrewhere ir.where_).1.flatMap keptOfPredicate, Unbraced text) ∧
        ∀ text ∈ (dialect.splitPrewhere ir.where_).2.flatMap keptOfPredicate, Unbraced text := by
    simp only [List.forall_mem_flatMap, @ClickHouseDialect.mem_splitPrewhere dialect ir.where_, or_imp,
      forall_and]
  have final : '{' ∉ (if dialect.final_ then " FINAL".str else []) := by
    cases dialect.final_ <;> decide
  have finalText : Unbraced (if dialect.final_ then " FINAL".str else []) := by
    cases dialect.final_
    · exact .nil
    · exact (unbraced_iff _).mpr (by decide)
  have finalHead : (if dialect.final_ then " FINAL".str else []).head? ≠ some '{' :=
    fun first => final (List.mem_of_mem_head? first)
  obtain ⟨limitText', limitHead⟩ := unbraced_limit ir.limit
  have items : (∀ text ∈ ir.select.map (fun item => questioned item.text), Unbraced text) ↔
      ∀ text ∈ ir.select.map SelectItem.text, Unbraced text := by
    simp only [List.forall_mem_map, unbraced_questioned]
  rw [queryText, unbraced_append limitHead, unbraced_append (head_items (.str (by decide)) _),
    unbraced_append (head_items (.str (by decide)) _),
    unbraced_append (head_clause (.str (by decide)) _),
    unbraced_append (head_clause (.str (by decide)) _), unbraced_append (head_joins _),
    unbraced_append finalHead, unbraced_around (.str (by decide)),
    unbraced_skip (.str (by decide)), unbraced_join (.str (by decide)), items,
    unbraced_joins, unbraced_clause (.str (by decide)), unbraced_clause (.str (by decide)),
    unbraced_items (.str (by decide)), unbraced_items (.str (by decide)), unbraced_order,
    kept]
  simp only [List.forall_mem_append, List.forall_mem_cons, conjuncts]
  tauto

/-! ## What is sent -/

variable {crates : Crates}

/-- The query that is stored for a text. -/
def stored (sql : Str) : Option QueryIr := (Parse.parseSelect sql).toOption

/-- The SQL and the binds that an endpoint has for ClickHouse. -/
def lowered (crates : Crates) (spec : EndpointSpec) (bound : Bound) : ApiResult BoundSql :=
  (dialectOf spec).lower crates bound.substituted bound.valueMap spec.ir

/-- `produce` sends them where a query is stored. -/
theorem backendQuery_lowered {spec : EndpointSpec} {ir : QueryIr} (query : spec.ir = some ir)
    (bound : Bound) : backendQuery crates .clickHouse spec bound =
      (lowered crates spec bound).map (fun out => ⟨out.sql, out.values, true⟩) := by
  simp only [backendQuery, lowered, dialectOf, query]
  rfl

/-- The endpoint whose text is the one that a request has chosen. -/
def writtenOut (spec : EndpointSpec) (bound : Bound) : EndpointSpec :=
  { spec with sql := bound.substituted, ir := stored bound.substituted }

/-! ## Fragments that are applied -/

/-- The text for a request with one of its fragments left out. -/
def without (spec : EndpointSpec) (acc : Collected) (name : Str) : Str :=
  substituteFragments spec.sql ((fragments acc spec.params).erase name)

/-- A text up to blanks. -/
def unspaced (s : Str) : Str := s.filter (fun c => !Text.isWhitespace c)

/-- On Postgres a fragment is applied where its text is more than blanks, and its marker is in the
template. -/
def AppliedOnPostgres (spec : EndpointSpec) (acc : Collected) (bound : Bound) (name : Str) : Prop :=
  unspaced bound.substituted ≠ unspaced (without spec acc name)

instance (spec : EndpointSpec) (acc : Collected) (bound : Bound) (name : Str) :
    Decidable (AppliedOnPostgres spec acc bound name) :=
  inferInstanceAs (Decidable (_ ≠ _))

/-- On ClickHouse a fragment is applied where something else is sent with it than without it. -/
def AppliedOnClickHouse (crates : Crates) (spec : EndpointSpec) (acc : Collected) (bound : Bound)
    (name : Str) : Prop :=
  lowered crates spec bound ≠ lowered crates spec { bound with substituted := without spec acc name }

/-- No fragment that the request chooses is applied on Postgres. -/
def Wordless (spec : EndpointSpec) (acc : Collected) (bound : Bound) : Prop :=
  ∀ name ∈ (fragments acc spec.params).keys, ¬AppliedOnPostgres spec acc bound name

instance (spec : EndpointSpec) (acc : Collected) (bound : Bound) :
    Decidable (Wordless spec acc bound) :=
  inferInstanceAs (Decidable (∀ name ∈ (fragments acc spec.params).keys, ¬_))

/-- What is sent is what the written text is lowered to, no marker is left in it, and the fragments
that Postgres applies, such as the predicate of a parameter that is present, are applied. -/
structure FragmentsReach (crates : Crates) (spec : EndpointSpec) (acc : Collected)
    (bound : Bound) : Prop where
  sent : lowered crates spec bound = lowered crates (writtenOut spec bound) bound
  clean : ∀ out, lowered crates spec bound = .ok out → Text.contains out.sql ['{', '{'] = false
  applied : ∀ name ∈ (fragments acc spec.params).keys, AppliedOnPostgres spec acc bound name →
    AppliedOnClickHouse crates spec acc bound name

/-- Where a query is stored no fragment is ever applied. -/
theorem not_applied {spec : EndpointSpec} {ir : QueryIr} (query : spec.ir = some ir)
    (acc : Collected) (bound : Bound) (name : Str) :
    ¬AppliedOnClickHouse crates spec acc bound name := by
  rw [AppliedOnClickHouse, not_not, lowered, lowered, query]
  rfl

/-- What ClickHouse is sent has a marker exactly if the stored query does. -/
theorem marker_sent_iff {spec : EndpointSpec} {ir : QueryIr} (query : spec.ir = some ir)
    {bound : Bound} {out : BoundSql} (sent : lowered crates spec bound = .ok out) :
    Text.contains out.sql ['{', '{'] = false ↔ Markerless ir := by
  rw [lowered, query] at sent
  rw [lowerIr_text sent, ← unbraced_iff, unbraced_query, Markerless]
  exact forall₂_congr (fun text _ => unbraced_iff text)

/-- An endpoint that is served has the query that its text is read as. -/
theorem ir_of_served {endpoints : List EndpointSpec} {spec : EndpointSpec}
    (served : spec ∈ Spec.parse crates stored endpoints) : spec.ir = stored spec.sql := by
  obtain ⟨endpoint, -, rfl⟩ := List.mem_map.mp served
  rfl

/-- The fragments reach ClickHouse where they make no difference: the written text is read as
the template is, nothing that is kept of it has a marker, and no fragment says anything. Where a
marker is kept, or a fragment says something, they never do. -/
theorem fragments_reach {endpoints : List EndpointSpec} {spec : EndpointSpec}
    (served : spec ∈ Spec.parse crates stored endpoints) {ir : QueryIr}
    (query : stored spec.sql = some ir) (acc : Collected) (bound : Bound) :
    (stored bound.substituted = stored spec.sql ∧ Markerless ir ∧ Wordless spec acc bound →
        FragmentsReach crates spec acc bound) ∧
      (¬Markerless ir → (lowered crates spec bound).isOk = true →
        ¬FragmentsReach crates spec acc bound) ∧
      (¬Wordless spec acc bound → ¬FragmentsReach crates spec acc bound) := by
  have has : spec.ir = some ir := (ir_of_served served).trans query
  refine ⟨?_, ?_, fun speaks reaches => speaks fun name member applies => ?_⟩
  · rintro ⟨same, markerless, free⟩
    refine ⟨?_, fun out sent => (marker_sent_iff has sent).mpr markerless,
      fun name member applies => absurd applies (free name member)⟩
    have whole : writtenOut spec bound = { spec with sql := bound.substituted } := by
      rw [writtenOut, same, ← ir_of_served served]
    rw [whole]
    rfl
  · rintro marked sends ⟨-, clean, -⟩
    cases sent : lowered crates spec bound with
    | error e => simp [sent, Except.isOk, Except.toBool] at sends
    | ok out => exact marked ((marker_sent_iff has sent).mp (clean out sent))
  · exact not_applied has acc bound name (reaches.applied name member applies)

/-! ## A filter that is lost -/

/-- Trades at two venues, of one side where a side is given. -/
def tradesTemplate : EndpointSpec where
  id := "trades".str
  path := "/trades".str
  ttl := "5s".str
  sql := "SELECT sym FROM md.trade WHERE venue IN ('a', 'b') \x7b\x7bof_side\x7d\x7d".str
  params := [
    { name := "side".str, kind := .query, ty := "str".str,
      present := mapOf [("of_side".str, "AND side = :side".str)] }]

/-- The same endpoint with the reader's form of its query. -/
def trades : EndpointSpec := { tradesTemplate with ir := stored tradesTemplate.sql }

/-- It passes the checks at load. -/
theorem trades_served : trades ∈ Spec.parse Crates.plain stored [tradesTemplate] := by
  have passed : (lint Crates.plain tradesTemplate).isOk = true := by decide +kernel
  exact List.mem_map.mpr ⟨_, List.mem_filter.mpr ⟨List.mem_singleton_self _, passed⟩, rfl⟩

/-- What a request for trades makes of the parameters, and what it resolves to. -/
def tradesBound (side : Option Str) : Option (Collected × Bound) :=
  match collectFrom Crates.plain ∅ (mapOf (side.map ("side".str, ·)).toList) {} trades.params with
  | .ok acc => (finish trades acc).toOption.map (fun bound => (acc, bound))
  | .error _ => none

/-- No side is asked for, and none is sent. -/
theorem all_sides_reach : ∃ acc bound, tradesBound none = some (acc, bound) ∧
    FragmentsReach Crates.plain trades acc bound := by
  have reads : (tradesBound none).any (fun resolved => decide (
      stored resolved.2.substituted = stored trades.sql ∧
        Wordless trades resolved.1 resolved.2)) = true := by
    rw [tradesBound, trades, tradesTemplate]
    repeat rw [String.str_ofList]
    decide +kernel
  obtain ⟨⟨acc, bound⟩, found, known⟩ := (Option.any_eq_true _ _).mp reads
  obtain ⟨same, free⟩ := of_decide_eq_true known
  have clean : (stored trades.sql).any (fun ir => decide (Markerless ir)) = true := by
    decide +kernel
  obtain ⟨ir, query, markerless⟩ := (Option.any_eq_true _ _).mp clean
  exact ⟨acc, bound, found, (fragments_reach trades_served query acc bound).1
    ⟨same, of_decide_eq_true markerless, free⟩⟩

/-- Buys are asked for. Postgres is given the filter, and ClickHouse every trade. -/
theorem side_lost : ∃ acc bound, tradesBound (some "buy".str) = some (acc, bound) ∧
    bound.sql = "SELECT sym FROM md.trade WHERE venue IN ('a', 'b') AND side = $1".str ∧
    lowered Crates.plain trades bound =
      .ok ⟨"SELECT sym FROM md.trade WHERE venue IN ('a', 'b')".str, []⟩ ∧
    ¬FragmentsReach Crates.plain trades acc bound := by
  have sends : (tradesBound (some "buy".str)).any (fun resolved => decide (
      resolved.2.sql = "SELECT sym FROM md.trade WHERE venue IN ('a', 'b') AND side = $1".str ∧
      (lowered Crates.plain trades resolved.2).toOption =
        some ⟨"SELECT sym FROM md.trade WHERE venue IN ('a', 'b')".str, []⟩ ∧
      (lowered Crates.plain trades resolved.2).toOption ≠
        (lowered Crates.plain (writtenOut trades resolved.2) resolved.2).toOption)) = true := by
    rw [tradesBound, trades, tradesTemplate]
    repeat rw [String.str_ofList]
    decide +kernel
  obtain ⟨⟨acc, bound⟩, found, facts⟩ := (Option.any_eq_true _ _).mp sends
  obtain ⟨text, sent, differs⟩ := of_decide_eq_true facts
  refine ⟨acc, bound, found, text, ApiResult.ok_of_toOption sent, ?_⟩
  rintro ⟨same, -, -⟩
  exact differs (congrArg Except.toOption same)

end LumidPlatform.Read.Fragments
