import LumidPlatform.Read.Rendered

/-!
# The check at load

A query is checked for ClickHouse when its spec is loaded, and lowered for ClickHouse when a
request asks for it. The check walks the conditions of the query in the order in which they are
written and looks at each cast before what is cast. The lowering walks the whole query, takes the
conditions in the order of its clauses and looks at a cast after what is cast. They agree on
which queries can be expressed.
-/

namespace LumidPlatform.Read.LoadCheck

open LumidPlatform.Read.Ir LumidPlatform.Read.Dialect
open LumidPlatform.Read.Dialect.ClickHouseDialect

/-! ## The check -/

mutual

/-- `check_expr`. -/
def checkExpr (crates : Crates) : Expr → Except Str Unit
  | .cast expr ty => do
    if ty.ch.isNone then throw ("cast to ".str ++ crates.unicode.debug ty.pg)
    checkExpr crates expr
  | .fn _ args => checkExprs crates args
  | .col _ => pure ()
  | .bind _ => pure ()
  | .lit _ => pure ()
  | .raw _ => pure ()

/-- The loop over expressions. -/
def checkExprs (crates : Crates) : List Expr → Except Str Unit
  | [] => pure ()
  | e :: rest => do
    checkExpr crates e
    checkExprs crates rest

end

/-- `check_pred`. -/
def checkPred (crates : Crates) : Predicate → Except Str Unit
  | .compare lhs _ rhs => do
    checkExpr crates lhs
    checkExpr crates rhs
  | .inList expr items _ => do
    checkExpr crates expr
    checkExprs crates items
  | .and a b => do
    checkPred crates a
    checkPred crates b
  | .or a b => do
    checkPred crates a
    checkPred crates b
  | .not a => checkPred crates a
  | .raw _ => pure ()

/-- The conjuncts in turn, up to the first that is refused. -/
def checkPreds (crates : Crates) : List Predicate → Except Str Unit
  | [] => pure ()
  | p :: rest => do
    checkPred crates p
    checkPreds crates rest

/-- `validate_clickhouse`: the first construct that ClickHouse cannot express. -/
def validateClickhouse (crates : Crates) (ir : QueryIr) : Except Str Unit :=
  checkPreds crates ir.where_

/-- Two checks pass if both do. -/
theorem check_then {first second : Except Str Unit} :
    (first >>= fun _ => second) = .ok () ↔ first = .ok () ∧ second = .ok () := by
  cases first with
  | error e => exact iff_of_false nofun nofun
  | ok _ => exact (and_iff_right rfl).symm

/-- A cast is accepted to a type that ClickHouse has. -/
theorem checkExpr_cast {crates : Crates} {expr : Expr} {ty : IrType} :
    checkExpr crates (.cast expr ty) = .ok () ↔
      checkExpr crates expr = .ok () ∧ ty.ch.isSome = true := by
  rw [checkExpr]
  cases ty.ch with
  | none => exact iff_of_false nofun nofun
  | some chTy => exact (and_iff_left rfl).symm

/-- The conjuncts are accepted if each of them is. -/
theorem checkPreds_iff {crates : Crates} {conj : List Predicate} :
    checkPreds crates conj = .ok () ↔ ∀ p ∈ conj, checkPred crates p = .ok () := by
  induction conj with
  | nil => exact iff_of_true rfl (by simp)
  | cons p rest inductionHypothesis =>
    rw [checkPreds, check_then, inductionHypothesis, List.forall_mem_cons]

/-! ## The binds of a query -/

mutual

/-- The binds that the lowering of an expression reads. -/
def exprNames : Expr → List Str
  | .bind name => [name]
  | .fn _ args => exprsNames args
  | .cast expr _ => exprNames expr
  | .raw t => bindNames t
  | .col _ => []
  | .lit _ => []

/-- The binds of the arguments of a function. -/
def exprsNames : List Expr → List Str
  | [] => []
  | e :: rest => exprNames e ++ exprsNames rest

end

/-- The binds of a filter. -/
def predicateNames : Predicate → List Str
  | .compare lhs _ rhs => exprNames lhs ++ exprNames rhs
  | .inList expr items _ => exprNames expr ++ exprsNames items
  | .and a b => predicateNames a ++ predicateNames b
  | .or a b => predicateNames a ++ predicateNames b
  | .not a => predicateNames a
  | .raw t => bindNames t

/-- The bind of a limit, if it is one. -/
def limitNames : Limit → List Str
  | .lit _ => []
  | .bind name => [name]

/-- The binds that a query mentions where binds are lowered. -/
def queryNames (ir : QueryIr) : List Str :=
  ir.select.flatMap (fun item => bindNames item.text) ++
    ir.joins.flatMap (fun j => bindNames j.on) ++ ir.where_.flatMap predicateNames ++
    (ir.limit.map limitNames).getD []

/-- Every one of the names has a value. -/
def Defined (values : HashMap BindValue) (names : List Str) : Prop :=
  ∀ name ∈ names, (values.lookup name).isSome = true

variable {values : HashMap BindValue}

/-- Two lists of binds have values if both have. -/
@[simp]
theorem defined_append {first second : List Str} :
    Defined values (first ++ second) ↔ Defined values first ∧ Defined values second :=
  List.forall_mem_append

/-- Lists of binds have values if each has. -/
theorem defined_flatMap {T : Type} {xs : List T} {names : T → List Str} :
    Defined values (xs.flatMap names) ↔ ∀ x ∈ xs, Defined values (names x) := by
  constructor
  · exact fun all x member name within => all name (List.mem_flatMap.mpr ⟨x, member, within⟩)
  · intro all name member
    obtain ⟨x, inside, within⟩ := List.mem_flatMap.mp member
    exact all x inside name within

/-! ## When a rendering succeeds -/

/-- A rendering succeeds exactly under a condition, whatever values were pushed before it. -/
def Succeeds {T : Type} (render : Render T) (condition : Prop) : Prop :=
  ∀ ordered, (∃ out, render ordered = .ok out) ↔ condition

section Rules

variable {T U : Type} {condition later : Prop}

/-- A finished value is no failure. -/
theorem succeeds_pure (value : T) : Succeeds (pure value) True :=
  fun ordered => iff_of_true ⟨(value, ordered), rfl⟩ trivial

/-- An error is one. -/
theorem succeeds_throw (e : ApiError) : Succeeds (throw e : Render T) False :=
  fun _ => iff_of_false (fun ⟨_, ran⟩ => nomatch ran) id

/-- A rendering after another one needs both conditions. -/
theorem succeeds_bind {first : Render T} {next : T → Render U}
    (head : Succeeds first condition) (tail : ∀ value, Succeeds (next value) later) :
    Succeeds (first >>= next) (condition ∧ later) := by
  intro ordered
  constructor
  · rintro ⟨⟨result, remaining⟩, ran⟩
    obtain ⟨value, pushed, started, rest⟩ := Rendered.bind_ok ran
    exact ⟨(head ordered).mp ⟨_, started⟩, (tail value pushed).mp ⟨_, rest⟩⟩
  · rintro ⟨started, ended⟩
    obtain ⟨⟨value, pushed⟩, ran⟩ := (head ordered).mpr started
    obtain ⟨out, rest⟩ := (tail value pushed).mpr ended
    refine ⟨out, ?_⟩
    have steps : (first >>= next) ordered = next value pushed := by
      simp [bind, StateT.bind, Except.bind, ran]
    rw [steps, rest]

/-- What is made of the result does not matter. -/
theorem succeeds_map {first : Render T} (head : Succeeds first condition) (shape : T → U) :
    Succeeds (first >>= fun value => pure (shape value)) condition := by
  have both := succeeds_bind head (fun value => succeeds_pure (shape value))
  rwa [and_true] at both

/-- The condition may be replaced by an equivalent one. -/
theorem succeeds_iff {render : Render T} (given : Succeeds render condition)
    (same : condition ↔ later) : Succeeds render later :=
  fun ordered => (given ordered).trans same

/-- A list is rendered if each of its members is. -/
theorem succeeds_mapM {render : U → Render T} {accepted : U → Prop} {xs : List U}
    (each : ∀ x ∈ xs, Succeeds (render x) (accepted x)) :
    Succeeds (xs.mapM render) (∀ x ∈ xs, accepted x) := by
  induction xs with
  | nil =>
    rw [List.mapM_nil]
    exact succeeds_iff (succeeds_pure []) (by simp)
  | cons x rest inductionHypothesis =>
    rw [List.mapM_cons]
    have tail := inductionHypothesis (fun y member => each y (List.mem_cons_of_mem x member))
    refine succeeds_iff (succeeds_bind (each x List.mem_cons_self)
      (fun shown => succeeds_map tail (shown :: ·))) ?_
    rw [List.forall_mem_cons]

end Rules

/-! ## The lowering -/

variable {crates : Crates}

/-- A text whose binds have values is lowered. -/
theorem lowerTextBinds_succeeds {text : Str} (defined : Defined values (bindNames text)) :
    Succeeds (lowerTextBinds values text) True := by
  intro ordered
  rw [lowerTextBinds, lowerScan_eq_lowerPieces]
  exact iff_of_true (lowerPieces_isOk _ defined [] ordered) trivial

/-- A bind that has a value is pushed. -/
theorem pushBind_succeeds {name : Str} (defined : Defined values [name]) :
    Succeeds (pushBind values name) True := by
  intro ordered
  obtain ⟨v, found⟩ := Option.isSome_iff_exists.mp (defined name List.mem_cons_self)
  rw [pushBind, found]
  exact iff_of_true ⟨_, rfl⟩ trivial

mutual

/-- An expression is lowered exactly when the check passes it. -/
theorem renderExpr_succeeds : ∀ e : Expr, Defined values (exprNames e) →
    Succeeds (renderExpr crates values e) (checkExpr crates e = .ok ())
  | .col c, _ => by
    rw [renderExpr, checkExpr]
    exact succeeds_iff (succeeds_pure c) (iff_of_true trivial rfl)
  | .lit l, _ => by
    rw [renderExpr, checkExpr]
    exact succeeds_iff (succeeds_pure l) (iff_of_true trivial rfl)
  | .bind name, defined => by
    rw [renderExpr, checkExpr]
    exact succeeds_iff (pushBind_succeeds defined) (iff_of_true trivial rfl)
  | .fn name args, defined => by
    rw [renderExpr, checkExpr]
    exact succeeds_map (renderExprs_succeeds args defined) _
  | .cast expr ty, defined => by
    rw [renderExpr]
    have inner := renderExpr_succeeds expr defined
    refine succeeds_iff (succeeds_bind inner fun shown =>
      (?_ : Succeeds _ (ty.ch.isSome = true))) checkExpr_cast.symm
    cases ty.ch with
    | none => exact succeeds_iff (succeeds_throw _) (by simp)
    | some chTy => exact succeeds_iff (succeeds_pure _) (by simp)
  | .raw t, defined => by
    rw [renderExpr, checkExpr]
    exact succeeds_iff (lowerTextBinds_succeeds defined) (iff_of_true trivial rfl)

/-- The arguments of a function are rendered if they pass the check. -/
theorem renderExprs_succeeds : ∀ es : List Expr, Defined values (exprsNames es) →
    Succeeds (renderExprs crates values es) (checkExprs crates es = .ok ())
  | [], _ => by
    rw [renderExprs, checkExprs]
    exact succeeds_iff (succeeds_pure []) (iff_of_true trivial rfl)
  | e :: rest, defined => by
    rw [exprsNames, defined_append] at defined
    rw [renderExprs, checkExprs, check_then]
    exact succeeds_bind (renderExpr_succeeds e defined.1)
      fun shown => succeeds_map (renderExprs_succeeds rest defined.2) _

end

/-- So is a filter. -/
theorem renderPredicate_succeeds {p : Predicate} (defined : Defined values (predicateNames p)) :
    Succeeds (renderPredicate crates values p) (checkPred crates p = .ok ()) := by
  induction p with
  | compare lhs op rhs =>
    rw [predicateNames, defined_append] at defined
    rw [renderPredicate, checkPred, check_then]
    exact succeeds_bind (renderExpr_succeeds lhs defined.1)
      fun l => succeeds_map (renderExpr_succeeds rhs defined.2) _
  | inList expr items negated =>
    rw [predicateNames, defined_append] at defined
    rw [renderPredicate, checkPred, check_then]
    exact succeeds_bind (renderExpr_succeeds expr defined.1)
      fun e => succeeds_map (renderExprs_succeeds items defined.2) _
  | and a b left right =>
    rw [predicateNames, defined_append] at defined
    rw [renderPredicate, checkPred, check_then]
    exact succeeds_bind (left defined.1) fun l => succeeds_map (right defined.2) _
  | or a b left right =>
    rw [predicateNames, defined_append] at defined
    rw [renderPredicate, checkPred, check_then]
    exact succeeds_bind (left defined.1) fun l => succeeds_map (right defined.2) _
  | not a inner =>
    rw [renderPredicate, checkPred]
    exact succeeds_map (inner defined) _
  | raw t =>
    rw [renderPredicate, checkPred]
    exact succeeds_iff (lowerTextBinds_succeeds defined) (iff_of_true trivial rfl)

/-- So are the conjuncts of a clause. -/
theorem renderClause_succeeds {keyword : Str} {conj : List Predicate}
    (defined : ∀ p ∈ conj, Defined values (predicateNames p)) :
    Succeeds (renderClause crates values keyword conj)
      (∀ p ∈ conj, checkPred crates p = .ok ()) := by
  rw [renderClause]
  split_ifs with empty
  · rw [List.isEmpty_iff] at empty
    exact succeeds_iff (succeeds_pure []) (by simp [empty])
  · refine succeeds_map ?_ _
    exact succeeds_map (succeeds_mapM fun p member => renderPredicate_succeeds (defined p member)) _

/-- So is a query, wherever its filters are put. -/
theorem renderQuery_succeeds (dialect : ClickHouseDialect) {ir : QueryIr}
    (defined : Defined values (queryNames ir)) :
    Succeeds (renderQuery crates dialect ir values) (validateClickhouse crates ir = .ok ()) := by
  simp only [queryNames, defined_append, defined_flatMap] at defined
  obtain ⟨⟨⟨items, joins⟩, conditions⟩, limit⟩ := defined
  have selected : Succeeds (ir.select.mapM (renderSelectItem values)) True :=
    succeeds_iff (succeeds_mapM
      fun item member => lowerTextBinds_succeeds (items item member)) (by simp)
  have joined : Succeeds (ir.joins.mapM (renderJoin values)) True :=
    succeeds_iff (succeeds_mapM
      fun j member => succeeds_map (lowerTextBinds_succeeds (joins j member)) _) (by simp)
  have hoisted (keyword : Str) := @renderClause_succeeds values crates keyword _
    fun p member => conditions p ((mem_splitPrewhere dialect).mpr (Or.inl member))
  have kept (keyword : Str) := @renderClause_succeeds values crates keyword _
    fun p member => conditions p ((mem_splitPrewhere dialect).mpr (Or.inr member))
  rw [renderQuery]
  refine succeeds_iff (succeeds_bind selected fun shownItems => succeeds_bind joined
    fun shownJoins => succeeds_bind (hoisted _) fun prewhere => succeeds_bind (kept _)
      fun where_ => (?_ : Succeeds _ True)) ?_
  · cases bound : ir.limit with
    | none => exact succeeds_iff (succeeds_map (succeeds_pure []) _) Iff.rfl
    | some lim =>
      rw [bound] at limit
      have shown : Succeeds (renderLimit values lim) True := by
        cases lim with
        | lit n => exact succeeds_pure _
        | bind name => exact pushBind_succeeds limit
      exact succeeds_iff (succeeds_bind shown fun text => succeeds_map (succeeds_pure _) _)
        (and_iff_left trivial)
  · rw [validateClickhouse, checkPreds_iff, true_and, true_and, and_true]
    constructor
    · intro both p member
      exact ((mem_splitPrewhere dialect).mp member).elim (both.1 p) (both.2 p)
    · intro all
      exact ⟨fun p member => all p ((mem_splitPrewhere dialect).mpr (Or.inl member)),
        fun p member => all p ((mem_splitPrewhere dialect).mpr (Or.inr member))⟩

/-- The check at load is exact. A query whose binds have values is lowered exactly when the
check passes it, whatever is hoisted and whether or not rows are deduplicated. -/
theorem lowerIr_ok_iff (crates : Crates) (dialect : ClickHouseDialect) {ir : QueryIr}
    {values : HashMap BindValue} (defined : Defined values (queryNames ir)) :
    (∃ bound, dialect.lowerIr crates ir values = .ok bound) ↔
      validateClickhouse crates ir = .ok () := by
  rw [← renderQuery_succeeds dialect defined [], lowerIr]
  cases renderQuery crates dialect ir values [] with
  | error e =>
    refine iff_of_false ?_ ?_
    · rintro ⟨_, same⟩
      cases same
    · rintro ⟨_, same⟩
      cases same
  | ok out => exact iff_of_true ⟨_, rfl⟩ ⟨_, rfl⟩

/-- `SELECT id FROM t WHERE CAST(:n AS ty) = id`. -/
def castQuery (ty : IrType) : QueryIr where
  select := [⟨"id".str⟩]
  «from» := ⟨none, "t".str, none⟩
  joins := []
  where_ := [.compare (.cast (.bind ['n']) ty) .eq (.col "id".str)]
  groupBy := []
  orderBy := []
  limit := none

/-- A cast to an integer is lowered, a cast to another type is not. -/
theorem castQuery_lowered :
    (∃ bound, lowerIr Crates.plain ⟨true, ["id".str]⟩ (castQuery .int8)
      (AList.insert ['n'] (.int 1) ∅) = .ok bound) ∧
    ¬∃ bound, lowerIr Crates.plain ⟨true, ["id".str]⟩ (castQuery (.other "numeric".str))
      (AList.insert ['n'] (.int 1) ∅) = .ok bound := by
  have defined (ty : IrType) :
      Defined (AList.insert ['n'] (.int 1) ∅) (queryNames (castQuery ty)) := by
    have names : queryNames (castQuery ty) = [['n']] := rfl
    rw [names]
    exact List.forall_mem_singleton.mpr rfl
  constructor
  · exact (lowerIr_ok_iff Crates.plain ⟨true, ["id".str]⟩ (defined .int8)).mpr rfl
  · intro lowered
    exact nomatch (lowerIr_ok_iff Crates.plain ⟨true, ["id".str]⟩
      (defined (.other "numeric".str))).mp lowered

end LumidPlatform.Read.LoadCheck
