import LumidPlatform.Read.Alignment
import LumidPlatform.Read.Exec

/-!
# Scope of self-tenant endpoints

The tenant of a self-scoped endpoint is put into the query map. It scopes the read where the
statement that the database is sent has a placeholder for `:tenant`, and where the value that falls
to the placeholder is that of the subject. On Postgres the statement is the SQL with the fragments
of the request filled in; on ClickHouse it is the stored query, if there is one, and its
placeholders have no numbers: a question mark of the text takes the value of the next one. The
load-time check asks for less: that the template contains the characters `:tenant` and that some
parameter has the name.
-/

namespace LumidPlatform.Read.TenantScope

open LumidPlatform.Read.Spec LumidPlatform.Read.Dialect LumidPlatform.Read.Bind
  LumidPlatform.Read.Exec LumidPlatform.Read.Alignment

def tenant : Str := "tenant".str

/-- The value a subject resolves to under the parameter that binds the tenant. -/
def subValue (crates : Crates) (spec : EndpointSpec) (sub : Str) : Option BindValue :=
  (lastNamed tenant spec.params).bind (fun p => paramValue crates p sub)

/-! ## The statement that is sent -/

/-- The bind that a placeholder was made from, if it was made from one. -/
def origin : Piece → Option Str
  | .bind name => some name
  | .char _ => none

/-- What the database takes for placeholders, in the order in which it takes the values. -/
def placeholders (kind : BackendKind) (spec : EndpointSpec) (bound : Bound) : List (Option Str) :=
  match kind with
  | .postgres => (bindNames bound.substituted).map some
  | .clickHouse =>
    (marks (emitted (dialectOf spec) bound.substituted bound.valueMap spec.ir)).map origin

/-- The binds whose values are sent, in their order. -/
def sentNames (kind : BackendKind) (spec : EndpointSpec) (bound : Bound) : List Str :=
  match kind with
  | .postgres => bindNames bound.substituted
  | .clickHouse => loweredNames (dialectOf spec) bound.substituted spec.ir

/-- A query is scoped: it has a placeholder for the tenant, and to each of them falls the value of
the subject. -/
def TenantScoped (crates : Crates) (kind : BackendKind) (spec : EndpointSpec) (sub : Str)
    (bound : Bound) (query : BoundQuery) : Prop :=
  ∃ v, subValue crates spec sub = some v ∧ some tenant ∈ placeholders kind spec bound ∧
    ∀ place : Nat, (placeholders kind spec bound)[place]? = some (some tenant) →
      query.binds[place]? = some v

theorem mem_pieceNames {name : Str} {ps : List Piece} : name ∈ pieceNames ps ↔ .bind name ∈ ps := by
  induction ps with
  | nil => simp [pieceNames]
  | cons piece rest inductionHypothesis =>
    cases piece with
    | char c => simp [pieceNames, inductionHypothesis]
    | bind other => simp [pieceNames, inductionHypothesis]

theorem mem_origins {name : Str} {ps : List Piece} :
    some name ∈ ps.map origin ↔ name ∈ pieceNames ps := by
  rw [mem_pieceNames, List.mem_map]
  constructor
  · rintro ⟨piece, member, same⟩
    cases piece with
    | char c => cases same
    | bind other =>
      obtain rfl := Option.some.inj same
      exact member
  · intro member
    exact ⟨_, member, rfl⟩

/-- What ClickHouse is sent is lowered by its dialect, where a query is stored and where not. -/
theorem backendQuery_lower {crates : Crates} {spec : EndpointSpec} {path query : HashMap Str}
    {bound : Bound} (resolved : resolve crates spec path query = .ok bound) {sent : BoundQuery}
    (asked : backendQuery crates .clickHouse spec bound = .ok sent) :
    ∃ out, (dialectOf spec).lower crates bound.substituted bound.valueMap spec.ir = .ok out ∧
      out.values = sent.binds := by
  cases stored : spec.ir with
  | some ir =>
    simp only [backendQuery, stored] at asked
    simp only [dialectOf, stored, Option.map_some, Option.getD_some]
    cases lowered : (ClickHouseDialect.mk spec.chFinal (ir.orderBy.map Ir.OrderItem.expr)).lower
        crates bound.substituted bound.valueMap (some ir) with
    | error e => simp [lowered, Except.map] at asked
    | ok out =>
      refine ⟨out, rfl, ?_⟩
      rw [lowered, Except.map, Except.ok.injEq] at asked
      rw [← asked]
  | none =>
    obtain ⟨outcomes, -, finished⟩ := resolve_ok resolved
    obtain ⟨-, lowered, values, -⟩ := finish_ok finished
    rw [← values] at lowered
    simp only [backendQuery, stored, Except.ok.injEq] at asked
    refine ⟨⟨pgPlaceholdersToCh bound.sql, bound.values⟩, ?_, ?_⟩
    · rw [ClickHouseDialect.lower, lowered]
      rfl
    · rw [← asked]

/-- The values are those of the binds, in order. -/
theorem sent_values {crates : Crates} {kind : BackendKind} {spec : EndpointSpec}
    {path query : HashMap Str} {bound : Bound} (resolved : resolve crates spec path query = .ok bound)
    {sent : BoundQuery} (asked : backendQuery crates kind spec bound = .ok sent) :
    sent.binds.map some = (sentNames kind spec bound).map bound.valueMap.lookup := by
  cases kind with
  | clickHouse =>
    obtain ⟨out, lowered, same⟩ := backendQuery_lower resolved asked
    rw [← same, values_of_lowered lowered, sentNames]
  | postgres =>
    obtain ⟨outcomes, -, finished⟩ := resolve_ok resolved
    obtain ⟨-, lowered, values, -⟩ := finish_ok finished
    have plain : sent = ⟨bound.sql, bound.values, false⟩ := by
      simpa [backendQuery, eq_comm] using asked
    rw [plain, values]
    exact lowerBinds_values lowered

/-- The tenant has a placeholder where it is among the binds. -/
theorem placeholder_iff {crates : Crates} {kind : BackendKind} {spec : EndpointSpec}
    {path query : HashMap Str} {bound : Bound} (resolved : resolve crates spec path query = .ok bound)
    {sent : BoundQuery} (asked : backendQuery crates kind spec bound = .ok sent) :
    some tenant ∈ placeholders kind spec bound ↔ tenant ∈ sentNames kind spec bound := by
  cases kind with
  | postgres => simp [placeholders, sentNames]
  | clickHouse =>
    obtain ⟨out, lowered, -⟩ := backendQuery_lower resolved asked
    rw [placeholders, sentNames, mem_origins, pieceNames_marks, pieceNames_emitted lowered]

/-! ## The subject -/

/-- The parameter that binds the tenant reads the query map, or the path gives it a text
of the same value. -/
def ReadsSub (crates : Crates) (spec : EndpointSpec) (path : HashMap Str) (sub : Str) : Prop :=
  ∃ p, lastNamed tenant spec.params = some p ∧
    (p.kind = .query ∨
      ∃ text, path.lookup tenant = some text ∧ paramValue crates p text = paramValue crates p sub)

theorem bindName_tenant : BindName tenant where
  start := ⟨'t', "enant".str, rfl, by decide⟩
  ident := List.all_eq_true.mp (by decide)

/-- A served self-tenant endpoint declares a tenant parameter. -/
theorem lastNamed_tenant {crates : Crates} {parseSelect : Str → Option Ir.QueryIr}
    {endpoints : List EndpointSpec} {spec : EndpointSpec}
    (served : spec ∈ parse crates parseSelect endpoints) (selfTenant : spec.selfTenant = true) :
    ∃ p, lastNamed tenant spec.params = some p := by
  have passed := lint_of_mem_parse served
  have declared : spec.params.any (fun p => p.name == tenant) = true := by
    simp only [lint, selfTenant, Bool.true_and] at passed
    split_ifs at passed with _ _ _ missing
    simpa [tenant] using missing
  obtain ⟨p, member, named⟩ := List.any_eq_true.mp declared
  exact Option.isSome_iff_exists.mp (lastNamed_isSome member (by simpa using named))

/-- A resolved request of an ordinary caller ran with its own subject as the tenant of
the query map. -/
theorem resolveRequest_scoped {world : World} {spec : EndpointSpec} {request : Request}
    {bound : Bound} (selfTenant : spec.selfTenant = true)
    (ordinary : adminReadElevation spec world.adminReadRole (callerRole request) = none)
    (resolved : resolveRequest world spec request = some (.ok bound)) :
    ∃ query : HashMap Str, resolve world.crates spec (mapOf request.pathParams)
      (query.insert tenant (callerSub request)) = .ok bound := by
  obtain ⟨own, sent, resolves⟩ := resolveRequest_ok resolved
  obtain ⟨query, -, supplied⟩ := Option.map_eq_some_iff.mp sent
  refine ⟨query, ?_⟩
  by_cases anonymous : (callerSub request).isEmpty = true
  · simp [scopedQuery, selfTenant, ordinary, anonymous] at supplied
  · have inserted : query.insert tenant (callerSub request) = own := by
      simpa [scopedQuery, selfTenant, ordinary, anonymous, tenant] using supplied
    exact inserted ▸ resolves

/-- The value bound to the tenant: the last tenant parameter's reading of the subject, or
of its path text. -/
theorem tenant_value {crates : Crates} {spec : EndpointSpec} {path query : HashMap Str}
    {sub : Str} {bound : Bound} {p : ParamSpec} (last : lastNamed tenant spec.params = some p)
    (resolved : resolve crates spec path (query.insert tenant sub) = .ok bound) :
    (p.kind = .query → bound.valueMap.lookup tenant = paramValue crates p sub) ∧
      (p.kind = .path → ∃ text, path.lookup tenant = some text ∧
        bound.valueMap.lookup tenant = paramValue crates p text) := by
  have given : ∀ q ∈ spec.params, q.name = tenant →
      (rawValue path (query.insert tenant sub) q).isSome = true := by
    intro q declared named
    cases kind : q.kind with
    | query =>
      simp only [rawValue, kind]
      rw [named, AList.lookup_insert]
      rfl
    | path =>
      obtain ⟨found, first⟩ := resolve_outcome resolved q declared
      cases raw : rawValue path (query.insert tenant sub) q with
      | some text => rfl
      | none => simp [outcome, raw, ParamSpec.effectivelyRequired, kind] at first
  obtain ⟨outcomes, each, finished⟩ := resolve_ok resolved
  obtain ⟨-, -, values, -⟩ := finish_ok finished
  have bound_tenant := recordAll_lookup {} each given
  rw [last, ← values] at bound_tenant
  obtain ⟨declared, named⟩ := lastNamed_eq_some last
  constructor
  · intro kind
    simp only [rawValue, kind] at bound_tenant
    rw [named, AList.lookup_insert] at bound_tenant
    exact bound_tenant
  · intro kind
    obtain ⟨text, raw⟩ := Option.isSome_iff_exists.mp (given p declared named)
    simp only [raw, Option.bind_some] at bound_tenant
    simp only [rawValue, kind] at raw
    rw [named] at raw
    exact ⟨text, raw, bound_tenant⟩

/-- The tenant is bound to the value of the subject where its parameter reads the subject. -/
theorem tenant_lookup_iff {world : World} {parseSelect : Str → Option Ir.QueryIr}
    {endpoints : List EndpointSpec} {spec : EndpointSpec}
    (served : spec ∈ parse world.crates parseSelect endpoints)
    (selfTenant : spec.selfTenant = true) {path query : HashMap Str} {sub : Str} {bound : Bound}
    (own : resolve world.crates spec path (query.insert tenant sub) = .ok bound) :
    bound.valueMap.lookup tenant = subValue world.crates spec sub ↔
      ReadsSub world.crates spec path sub := by
  obtain ⟨p, last⟩ := lastNamed_tenant served selfTenant
  obtain ⟨fromQuery, fromPath⟩ := tenant_value last own
  have value : subValue world.crates spec sub = paramValue world.crates p sub := by
    simp [subValue, last]
  rw [value]
  constructor
  · intro lookup
    cases kind : p.kind with
    | query => exact ⟨p, last, Or.inl kind⟩
    | path =>
      obtain ⟨text, given, found⟩ := fromPath kind
      exact ⟨p, last, Or.inr ⟨text, given, found.symm.trans lookup⟩⟩
  · rintro ⟨q, last', reads⟩
    obtain rfl : p = q := Option.some.inj (last.symm.trans last')
    cases kind : p.kind with
    | query => exact fromQuery kind
    | path =>
      obtain ⟨text, given, found⟩ := fromPath kind
      rcases reads with isQuery | ⟨text', given', same⟩
      · simp [kind] at isQuery
      · obtain rfl : text = text' := Option.some.inj (given.symm.trans given')
        exact found.trans same

/-- A bind has the value of the subject: the tenant where its parameter reads the subject, and
another name where the request happens to give it that value. -/
def GivesSub (crates : Crates) (spec : EndpointSpec) (path : HashMap Str) (sub : Str)
    (bound : Bound) (name : Str) : Prop :=
  if name = tenant then ReadsSub crates spec path sub
  else bound.valueMap.lookup name = subValue crates spec sub

/-- The statement binds the tenant, and counting every placeholder that the database sees, to each
of the tenant falls a bind that has the value of the subject. -/
structure ScopesSub (crates : Crates) (kind : BackendKind) (spec : EndpointSpec)
    (path : HashMap Str) (sub : Str) (bound : Bound) : Prop where
  binds : tenant ∈ sentNames kind spec bound
  meets : ∀ place : Nat, (placeholders kind spec bound)[place]? = some (some tenant) →
    ∃ name, (sentNames kind spec bound)[place]? = some name ∧
      GivesSub crates spec path sub bound name

/-- Where the placeholders are those of the binds, the tenant has to be bound and its parameter to
read the subject. -/
theorem scopesSub_iff {crates : Crates} {kind : BackendKind} {spec : EndpointSpec}
    {path : HashMap Str} {sub : Str} {bound : Bound}
    (aligned : placeholders kind spec bound = (sentNames kind spec bound).map some) :
    ScopesSub crates kind spec path sub bound ↔
      tenant ∈ sentNames kind spec bound ∧ ReadsSub crates spec path sub := by
  constructor
  · rintro ⟨binds, meets⟩
    obtain ⟨place, here⟩ := List.mem_iff_getElem?.mp binds
    obtain ⟨name, falls, gives⟩ := meets place (by rw [aligned, List.getElem?_map, here]; rfl)
    obtain rfl : tenant = name := Option.some.inj (here.symm.trans falls)
    rw [GivesSub, if_pos rfl] at gives
    exact ⟨binds, gives⟩
  · rintro ⟨binds, reads⟩
    refine ⟨binds, fun place here => ?_⟩
    rw [aligned, List.getElem?_map, Option.map_eq_some_iff] at here
    obtain ⟨name, falls, same⟩ := here
    obtain rfl := Option.some.inj same
    exact ⟨tenant, falls, by rwa [GivesSub, if_pos rfl]⟩

/-- On Postgres `:tenant` has to stand as a whole bind in the SQL of the request. -/
theorem scopesSub_postgres {crates : Crates} {spec : EndpointSpec} {path : HashMap Str} {sub : Str}
    {bound : Bound} : ScopesSub crates .postgres spec path sub bound ↔
      WholeBind false tenant bound.substituted ∧ ReadsSub crates spec path sub := by
  rw [scopesSub_iff rfl, sentNames, mem_bindNames_iff bindName_tenant]

/-- On ClickHouse, in a statement that copies no question mark and no bind, it has to be one of the
binds of the query. -/
theorem scopesSub_spotless {crates : Crates} {spec : EndpointSpec} {path : HashMap Str} {sub : Str}
    {bound : Bound} {out : BoundSql} (spotless : Spotless bound.substituted spec.ir)
    (lowered : (dialectOf spec).lower crates bound.substituted bound.valueMap spec.ir = .ok out) :
    ScopesSub crates .clickHouse spec path sub bound ↔
      tenant ∈ loweredNames (dialectOf spec) bound.substituted spec.ir ∧
        ReadsSub crates spec path sub := by
  have marked := (marks_emitted_iff lowered).mpr spotless
  have names := (marks_eq_binds_iff.mp marked).2
  rw [pieceNames_emitted lowered] at names
  refine scopesSub_iff ?_
  rw [placeholders, sentNames, marked, names, List.map_map]
  rfl

/-- A served self-tenant endpoint, read by a caller that does not elevate, is scoped to the subject
on either database exactly when the statement that is sent binds the tenant and the bind that falls
to each of its placeholders reads the subject. -/
theorem tenant_scoped_iff (world : World) (parseSelect : Str → Option Ir.QueryIr)
    (endpoints : List EndpointSpec) (spec : EndpointSpec)
    (served : spec ∈ parse world.crates parseSelect endpoints)
    (selfTenant : spec.selfTenant = true) (request : Request) (bound : Bound)
    (ordinary : adminReadElevation spec world.adminReadRole (callerRole request) = none)
    (resolved : resolveRequest world spec request = some (.ok bound)) (kind : BackendKind)
    (query : BoundQuery) (asked : backendQuery world.crates kind spec bound = .ok query) :
    TenantScoped world.crates kind spec (callerSub request) bound query ↔
      ScopesSub world.crates kind spec (mapOf request.pathParams) (callerSub request) bound := by
  obtain ⟨sent, own⟩ := resolveRequest_scoped selfTenant ordinary resolved
  have reads := tenant_lookup_iff served selfTenant own
  have values := sent_values own asked
  have gives (name : Str) : GivesSub world.crates spec (mapOf request.pathParams)
      (callerSub request) bound name ↔
        bound.valueMap.lookup name = subValue world.crates spec (callerSub request) := by
    rw [GivesSub]
    split_ifs with same
    · rw [same, reads]
    · rfl
  -- What falls to a placeholder is the value of the bind at its place.
  have falls (place : Nat) (v : BindValue) : query.binds[place]? = some v ↔
      ∃ name, (sentNames kind spec bound)[place]? = some name ∧
        bound.valueMap.lookup name = some v := by
    have here := congrArg (·[place]?) values
    simp only [List.getElem?_map] at here
    constructor
    · intro found
      rw [found, Option.map_some, eq_comm, Option.map_eq_some_iff] at here
      exact here
    · rintro ⟨name, at_, value⟩
      rw [at_, Option.map_some, value, Option.map_eq_some_iff] at here
      obtain ⟨w, found, same⟩ := here
      rw [found, Option.some.inj same]
  have there := placeholder_iff own asked
  constructor
  · rintro ⟨v, value, occurs, each⟩
    refine ⟨there.mp occurs, fun place here => ?_⟩
    obtain ⟨name, at_, found⟩ := (falls place v).mp (each place here)
    exact ⟨name, at_, (gives name).mpr (by rw [found, value])⟩
  · rintro ⟨binds, meets⟩
    obtain ⟨first, here⟩ := List.mem_iff_getElem?.mp (there.mpr binds)
    obtain ⟨name, at_, given⟩ := meets first here
    rw [gives] at given
    obtain ⟨w, member, bound_⟩ : ∃ w ∈ query.binds, bound.valueMap.lookup name = some w := by
      have listed : bound.valueMap.lookup name ∈
          (sentNames kind spec bound).map bound.valueMap.lookup :=
        List.mem_map_of_mem (List.mem_of_getElem? at_)
      rw [← values] at listed
      obtain ⟨w, member, same⟩ := List.mem_map.mp listed
      exact ⟨w, member, same.symm⟩
    refine ⟨w, given.symm.trans bound_, List.mem_of_getElem? here, fun place at_place => ?_⟩
    obtain ⟨other, at_other, given'⟩ := meets place at_place
    rw [gives, ← given, bound_] at given'
    exact (falls place w).mpr ⟨other, at_other, given'⟩

/-- Positions of an account; the SQL scopes by the given bind. -/
def positions (predicate : Str) : EndpointSpec where
  id := "positions".str
  path := "/positions".str
  ttl := "5s".str
  sql := "SELECT qty FROM core.positions WHERE owner = ".str ++ predicate
  selfTenant := true
  params := [
    { name := tenant, kind := .query, ty := "str".str },
    { name := "tenant_id".str, kind := .query, ty := "str".str }]

/-- A request by `alice` for the rows of `bob`. -/
def crafted : Request where
  rawQuery := some "tenant=bob&tenant_id=bob".str
  identity := some { sub := "alice".str, role := "user".str }

/-- Every database answers nothing. -/
def emptyWorld : World := World.plain (fun _ _ => .ok [])

/-- The check lets an endpoint pass by the characters of its predicate. -/
theorem positions_served {predicate : Str}
    (passed : (lint Crates.plain (positions predicate)).isOk = true) :
    positions predicate ∈ parse Crates.plain (fun _ => none) [positions predicate] :=
  List.mem_map.mpr ⟨_, List.mem_filter.mpr ⟨List.mem_singleton_self _, passed⟩, rfl⟩

/-- With `:tenant` as the predicate, the request for `bob` reads the rows of `alice`. -/
theorem positions_scoped : ∃ bound,
    resolveRequest emptyWorld (positions ":tenant".str) crafted = some (.ok bound) ∧
      TenantScoped Crates.plain .postgres (positions ":tenant".str) "alice".str bound
        ⟨bound.sql, bound.values, false⟩ := by
  have some : (accepted emptyWorld (positions ":tenant".str) crafted).isSome = true := by
    decide +kernel
  obtain ⟨bound, found⟩ := Option.isSome_iff_exists.mp some
  have text : (accepted emptyWorld (positions ":tenant".str) crafted).all
      (fun b => decide (tenant ∈ bindNames b.substituted)) = true := by decide +kernel
  have whole : WholeBind false tenant bound.substituted :=
    (mem_bindNames_iff bindName_tenant).mp (by simpa [found] using text)
  have resolved := resolveRequest_of_accepted found
  exact ⟨bound, resolved, (tenant_scoped_iff emptyWorld (fun _ => none) _ _
    (positions_served (by decide +kernel)) rfl crafted bound (by decide +kernel) resolved
      .postgres _ rfl).mpr (scopesSub_postgres.mpr ⟨whole, _, rfl, Or.inl rfl⟩)⟩

/-- With `:tenant_id` as the predicate the endpoint is served all the same, and the
request for `bob` reads the rows of `bob`: no placeholder is bound to the subject. -/
theorem positions_escaped : ∃ bound,
    positions ":tenant_id".str ∈ parse Crates.plain (fun _ => none)
        [positions ":tenant_id".str] ∧
      adminReadElevation (positions ":tenant_id".str) [] (callerRole crafted) = none ∧
      resolveRequest emptyWorld (positions ":tenant_id".str) crafted = some (.ok bound) ∧
      bound.values = [.text "bob".str] ∧
      ¬TenantScoped Crates.plain .postgres (positions ":tenant_id".str) (callerSub crafted) bound
        ⟨bound.sql, bound.values, false⟩ := by
  have some : (accepted emptyWorld (positions ":tenant_id".str) crafted).isSome = true := by
    decide +kernel
  obtain ⟨bound, found⟩ := Option.isSome_iff_exists.mp some
  have values : (accepted emptyWorld (positions ":tenant_id".str) crafted).map Bound.values =
      .some [.text "bob".str] := by decide +kernel
  have text : (accepted emptyWorld (positions ":tenant_id".str) crafted).all
      (fun b => decide (tenant ∉ bindNames b.substituted)) = true := by decide +kernel
  refine ⟨bound, positions_served (by decide +kernel), by decide +kernel,
    resolveRequest_of_accepted found, by simpa [found] using values, ?_⟩
  rintro ⟨v, -, occurs, -⟩
  have unbound : tenant ∉ bindNames bound.substituted := by simpa [found] using text
  exact unbound (by simpa [placeholders] using occurs)

/-- Positions at two venues, by the tenant after the list. -/
def venuePositions : EndpointSpec :=
  { positions [] with
    sql := "SELECT qty FROM core.positions WHERE venue IN ('a', 'b') AND(owner = :tenant)".str }

/-- The same with its query stored. -/
def storedPositions : EndpointSpec :=
  { venuePositions with ir := (Parse.parseSelect venuePositions.sql).toOption }

/-- The reader of the query drops what stands behind the list. Postgres reads the rows of `alice`,
and ClickHouse is sent no tenant at all. -/
theorem positions_dropped : ∃ bound query,
    resolveRequest emptyWorld storedPositions crafted = some (.ok bound) ∧
      bound.sql =
        "SELECT qty FROM core.positions WHERE venue IN ('a', 'b') AND(owner = $1)".str ∧
      bound.values = [.text "alice".str] ∧
      backendQuery Crates.plain .clickHouse storedPositions bound = .ok query ∧
      query.sql = "SELECT qty FROM core.positions WHERE venue IN ('a', 'b')".str ∧
      ¬TenantScoped Crates.plain .clickHouse storedPositions (callerSub crafted) bound query := by
  have facts : (accepted emptyWorld storedPositions crafted).any (fun bound => decide (
      bound.sql = "SELECT qty FROM core.positions WHERE venue IN ('a', 'b') AND(owner = $1)".str ∧
      bound.values = [.text "alice".str] ∧
      (backendQuery Crates.plain .clickHouse storedPositions bound).toOption =
        some ⟨"SELECT qty FROM core.positions WHERE venue IN ('a', 'b')".str, [], true⟩ ∧
      some tenant ∉ placeholders .clickHouse storedPositions bound)) = true := by
    rw [storedPositions, venuePositions]
    repeat rw [String.str_ofList]
    decide +kernel
  obtain ⟨bound, found, known⟩ := (Option.any_eq_true _ _).mp facts
  obtain ⟨text, values, asked, absent⟩ := of_decide_eq_true known
  refine ⟨bound, _, resolveRequest_of_accepted found, text, values, ApiResult.ok_of_toOption asked,
    rfl, ?_⟩
  rintro ⟨v, -, occurs, -⟩
  exact absent occurs

end LumidPlatform.Read.TenantScope
