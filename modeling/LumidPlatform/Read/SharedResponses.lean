import LumidPlatform.Read.Exec

/-!
# Responses marked for shared caches

A response is marked public by the specification alone, while its body depends on the
caller through the supplied tenant and through the read role. Two callers of one URL
receive one body in every state exactly when the endpoint is not cached, or when their
requests have one cache key and run one query under one role.
-/

namespace LumidPlatform.Read.SharedResponses

open LumidPlatform.Read.Spec LumidPlatform.Read.Bind LumidPlatform.Read.Cache
  LumidPlatform.Read.Exec

/-- A response that a shared cache may hand to anyone. -/
def Public (answer : Response) : Prop :=
  ∃ control, answer.header "cache-control".str = some control ∧
    Text.contains control "public".str = true

/-- A URL as a caller sends it. -/
def sent (url : Request) (caller : Option Identity) (ifNoneMatch : Option Str) : Request :=
  { url with identity := caller, ifNoneMatch := ifNoneMatch }

/-- The cache tiers that earlier requests to the endpoint leave, each answered over the
data of its own moment. -/
inductive Warmed (world : World) (spec : EndpointSpec) (gen : Nat) : Tiers → Prop where
  | cold (l2 : Option (Str → Option Bytes)) (empty : ∀ entries ∈ l2, entries = fun _ => none) :
      Warmed world spec gen ⟨fun _ => none, l2⟩
  | after {tiers : Tiers} (warmed : Warmed world spec gen tiers) (data : Data) (cutOff : Bool)
      (request : Request) (bound : Bound)
      (resolved : resolveRequest world spec request = some (.ok bound)) :
      Warmed world spec gen
        (getOrCompute world.crates tiers (requestKey world gen spec request bound)
          (spec.ttlDuration world.crates)
          (compute (withData world data) cutOff spec request bound)).2

/-- At every moment and in every cache state, two callers of one URL that are both
answered with 200 receive one body, if the first answer is public. -/
def SharedSafely (world : World) (spec : EndpointSpec) (url : Request)
    (caller caller' : Option Identity) : Prop :=
  ∀ (data : Data) (tiers : Tiers) (gen : Nat) (cutOff : Bool) (rid rid' : Str)
    (ifNoneMatch ifNoneMatch' : Option Str) (answer answer' : Response),
    Warmed world spec gen tiers →
      runSpec (withData world data) tiers gen cutOff rid spec (sent url caller ifNoneMatch) =
          some answer →
        runSpec (withData world data) tiers gen cutOff rid' spec
            (sent url caller' ifNoneMatch') = some answer' →
          answer.status = 200 → answer'.status = 200 → Public answer → answer.body = answer'.body

/-- Where both requests resolve they have one cache key, and unless reads are forwarded
to a peer they run one query under one role on whatever backend holds the table. -/
def SameQuery (world : World) (spec : EndpointSpec) (url : Request)
    (caller caller' : Option Identity) : Prop :=
  ∀ bound bound',
    resolveRequest world spec (sent url caller none) = some (.ok bound) →
      resolveRequest world spec (sent url caller' none) = some (.ok bound') →
        keyCanon bound.canon (effectiveReadRole world spec (sent url caller none)) =
            keyCanon bound'.canon (effectiveReadRole world spec (sent url caller' none)) ∧
          (fedPeer world = none →
            ∀ kind query query',
              backendQuery world.crates kind spec bound = .ok query →
                backendQuery world.crates kind spec bound' = .ok query' →
                  effectiveReadRole world spec (sent url caller none) =
                      effectiveReadRole world spec (sent url caller' none) ∧ query = query')

/-! ## What an answer with status 200 is -/

/-- An answer with status 200 carries a body the cache or the computation produced. -/
theorem runSpec_ok {world : World} {tiers : Tiers} {gen : Nat} {cutOff : Bool} {rid : Str}
    {spec : EndpointSpec} {request : Request} {answer : Response}
    (ran : runSpec world tiers gen cutOff rid spec request = some answer)
    (ok : answer.status = 200) :
    ∃ bound cb, resolveRequest world spec request = some (.ok bound) ∧
      (if spec.cache then
          (getOrCompute world.crates tiers (requestKey world gen spec request bound)
            (spec.ttlDuration world.crates) (compute world cutOff spec request bound)).1
        else (compute world cutOff spec request bound).map
          (fun bytes => CachedBody.new world.crates bytes (spec.ttlDuration world.crates))) =
        .ok cb ∧
      answer = respond world.crates cb spec request.ifNoneMatch ∧ answer.body = cb.bytes := by
  have failed : ∀ e : ApiError, e.intoResponse world.crates rid = answer → False := by
    intro e same
    have high := e.status_not_success
    have status : e.status = answer.status := congrArg Response.status same
    omega
  obtain ⟨outcome, resolved, answered⟩ := Option.map_eq_some_iff.mp ran
  cases outcome with
  | error e => exact (failed e answered).elim
  | ok bound =>
    simp only at answered
    split at answered
    · rename_i cb body
      refine ⟨bound, cb, resolved, body, answered.symm, ?_⟩
      simp only [respond] at answered
      split_ifs at answered with unchanged
      · rw [← answered] at ok
        simp at ok
      · rw [← answered]
    · rename_i e _
      exact (failed e answered).elim

/-- A resolved request whose body is there is answered with it. -/
theorem runSpec_of_body (world : World) {tiers : Tiers} {gen : Nat} {cutOff : Bool} (rid : Str)
    {spec : EndpointSpec} {request : Request} {bound : Bound} {cb : CachedBody}
    (resolved : resolveRequest world spec request = some (.ok bound)) (cached : spec.cache = true)
    (body : (getOrCompute world.crates tiers (requestKey world gen spec request bound)
      (spec.ttlDuration world.crates) (compute world cutOff spec request bound)).1 = .ok cb)
    (fresh : request.ifNoneMatch = none) :
    ∃ answer, runSpec world tiers gen cutOff rid spec request = some answer ∧
      answer.status = 200 ∧ answer.body = cb.bytes ∧ Public answer := by
  refine ⟨⟨200, [("content-type".str, "application/json".str), ("etag".str, cb.etag),
    ("cache-control".str, cacheControl world.crates spec)], cb.bytes⟩, ?_, rfl, rfl, ?_⟩
  · rw [runSpec, resolved]
    simp [cached, body, respond, fresh]
  · refine ⟨cacheControl world.crates spec, rfl, ?_⟩
    rw [cacheControl, if_pos cached]
    have starts : "public, max-age=".str = "public".str ++ ", max-age=".str := by decide
    rw [starts, List.append_assoc]
    exact Text.contains_append_self _ _

/-- Every answer of the executor carries the cache control of its specification. -/
theorem respond_cacheControl (crates : Crates) (cb : CachedBody) (spec : EndpointSpec)
    (ifNoneMatch : Option Str) :
    (respond crates cb spec ifNoneMatch).header "cache-control".str =
      some (cacheControl crates spec) := by
  rw [respond]
  split_ifs
  · rfl
  · rfl

/-- An endpoint that is not cached answers for the caller alone. -/
theorem not_public_of_uncached {world : World} {tiers : Tiers} {gen : Nat} {cutOff : Bool}
    {rid : Str} {spec : EndpointSpec} {request : Request} {answer : Response}
    (ran : runSpec world tiers gen cutOff rid spec request = some answer)
    (ok : answer.status = 200) (uncached : spec.cache = false) : ¬Public answer := by
  rintro ⟨control, found, isPublic⟩
  obtain ⟨bound, cb, -, -, rfl, -⟩ := runSpec_ok ran ok
  rw [respond_cacheControl] at found
  have stored : control = "no-store".str := by
    simpa [cacheControl, uncached] using (Option.some.inj found).symm
  rw [stored] at isPublic
  exact absurd isPublic (by decide)

/-! ## Rows that differ are rendered differently -/

/-- An insertion puts the value in one place, whatever the value is. -/
theorem insert_place (key : Str) (map : JsonMap) : ∃ before name after,
    ∀ value, JsonMap.insert key value map = before ++ (name, value) :: after := by
  induction map with
  | nil => exact ⟨[], key, [], fun _ => rfl⟩
  | cons entry rest inductionHypothesis =>
    obtain ⟨name, old⟩ := entry
    by_cases present : name = key
    · exact ⟨[], name, rest, fun _ => by simp [JsonMap.insert, present]⟩
    · obtain ⟨before, renamed, after, placed⟩ := inductionHypothesis
      exact ⟨(name, old) :: before, renamed, after,
        fun value => by simp [JsonMap.insert, present, placed value]⟩

/-- A joined text has each of its parts in one place. -/
theorem intercalate_place {α : Type} (sep : List α) (before after : List (List α)) :
    ∃ front back, ∀ part, sep.intercalate (before ++ part :: after) = front ++ part ++ back := by
  induction before with
  | nil =>
    cases after with
    | nil => exact ⟨[], [], fun _ => by simp⟩
    | cons next rest =>
      exact ⟨[], sep ++ sep.intercalate (next :: rest), fun part => by
        rw [List.nil_append, List.intercalate_cons_cons, List.nil_append, List.append_assoc]⟩
  | cons head rest inductionHypothesis =>
    obtain ⟨front, back, placed⟩ := inductionHypothesis
    refine ⟨head ++ sep ++ front, back, fun part => ?_⟩
    rw [List.cons_append, List.intercalate_cons_of_ne_nil (by simp), placed part]
    simp

/-- A value inserted into an object can be read off the printed object. -/
theorem toVec_insert_injective {crates : Crates} {key : Str} {map : JsonMap} {value value' : Json}
    (same : crates.toVec (.object (JsonMap.insert key value map)) =
      crates.toVec (.object (JsonMap.insert key value' map))) :
    crates.toVec value = crates.toVec value' := by
  obtain ⟨before, name, after, inserted⟩ := insert_place key map
  obtain ⟨front, back, placed⟩ := intercalate_place (Text.utf8 [','])
    (before.map (fun entry =>
      crates.toVec (.string entry.1) ++ Text.utf8 [':'] ++ crates.toVec entry.2))
    (after.map (fun entry =>
      crates.toVec (.string entry.1) ++ Text.utf8 [':'] ++ crates.toVec entry.2))
  rw [crates.toVec_object, crates.toVec_object, inserted, inserted] at same
  simp only [List.map_append, List.map_cons, placed] at same
  simpa using same

/-- A one-element array prints its element. -/
theorem toVec_singleton_injective {crates : Crates} {value value' : Json}
    (same : crates.toVec (.array [value]) = crates.toVec (.array [value'])) :
    crates.toVec value = crates.toVec value' := by
  rw [crates.toVec_array, crates.toVec_array] at same
  simpa using same

/-- Two rows without lineage columns that print differently are answered with different
bodies, in every shape. -/
theorem renderRows_ne {crates : Crates} (spec : EndpointSpec) {row row' : JsonMap}
    (idKv : Option (Str × Str)) (kept : stripLineage row = row) (kept' : stripLineage row' = row')
    (differ : crates.toVec (.object row) ≠ crates.toVec (.object row')) :
    ∃ bytes bytes', renderRows crates spec idKv [row] = .ok bytes ∧
      renderRows crates spec idKv [row'] = .ok bytes' ∧ bytes ≠ bytes' := by
  have unstripped : ∀ r, stripLineage r = r →
      (if spec.stripLineage then stripLineageRows [r] else [r]) = [r] := by
    intro r same
    simp [stripLineageRows, same]
  have asArray : crates.toVec (rowsValue [row]) ≠ crates.toVec (rowsValue [row']) :=
    fun same => differ (toVec_singleton_injective same)
  simp only [renderRows, unstripped row kept, unstripped row' kept', shape]
  cases spec.shape with
  | rows => exact ⟨_, _, rfl, rfl, asArray⟩
  | one => exact ⟨_, _, rfl, rfl, differ⟩
  | envelope => exact ⟨_, _, rfl, rfl, fun same => asArray (toVec_insert_injective same)⟩

/-- The row without columns, and a row of one empty column. -/
def bareRow : JsonMap := []

def filledRow : JsonMap := [("x".str, .null)]

theorem toVec_rows_ne (crates : Crates) :
    crates.toVec (.object bareRow) ≠ crates.toVec (.object filledRow) := by
  intro same
  rw [crates.toVec_object, crates.toVec_object] at same
  have lengths := congrArg List.length same
  have colon : (Text.utf8 [':']).length = 1 := by decide
  simp only [bareRow, filledRow, List.map_nil, List.map_cons, List.intercalate_nil,
    List.intercalate_singleton, List.length_append, List.length_nil, colon] at lengths
  omega

theorem renderRows_bare_filled (crates : Crates) (spec : EndpointSpec) (url : Request) :
    ∃ bytes bytes',
      renderRows crates spec (idEcho (mapOf url.pathParams)) [bareRow] = .ok bytes ∧
        renderRows crates spec (idEcho (mapOf url.pathParams)) [filledRow] = .ok bytes' ∧
          bytes ≠ bytes' :=
  renderRows_ne spec _ (rfl : stripLineage bareRow = bareRow)
    (rfl : stripLineage filledRow = filledRow) (toVec_rows_ne crates)

/-! ## When a shared cache is safe -/

/-- Under one key, two computations that cannot yield different bytes give one body. -/
theorem getOrCompute_same {crates : Crates} {tiers : Tiers} {key : CacheKey} {ttl : Duration}
    {fresh fresh' : ApiResult Bytes} {cb cb' : CachedBody}
    (agree : ∀ bytes bytes', fresh = .ok bytes → fresh' = .ok bytes' → bytes = bytes')
    (first : (getOrCompute crates tiers key ttl fresh).1 = .ok cb)
    (second : (getOrCompute crates tiers key ttl fresh').1 = .ok cb') : cb = cb' := by
  rw [getOrCompute_body] at first second
  cases held : tiers.stored crates key ttl with
  | some body =>
    simp only [held] at first second
    exact Except.ok.inj (first.symm.trans second)
  | none =>
    simp only [held] at first second
    obtain ⟨bytes, computed, rfl⟩ := ApiResult.map_eq_ok.mp first
    obtain ⟨bytes', computed', rfl⟩ := ApiResult.map_eq_ok.mp second
    rw [agree bytes bytes' computed computed']

/-- A local computation succeeds by a query that a backend answers. -/
theorem produce_ok {world : World} {cutOff : Bool} {spec : EndpointSpec} {bound : Bound}
    {idKv : Option (Str × Str)} {readRole : Str} {bytes : Bytes}
    (produced : produce world cutOff spec bound idKv readRole = .ok bytes) :
    ∃ backend query, world.backends (readTarget spec).1 (readTarget spec).2 = .ok backend ∧
      backendQuery world.crates backend.kind spec bound = .ok query := by
  obtain ⟨objs, fetched, -⟩ := ApiResult.bind_eq_ok.mp produced
  obtain ⟨backend, found, asked⟩ := ApiResult.bind_eq_ok.mp fetched
  obtain ⟨query, lowered, -⟩ := ApiResult.bind_eq_ok.mp asked
  exact ⟨backend, query, found, lowered⟩

/-- The query decides what a local computation yields. -/
theorem produce_congr {world : World} {spec : EndpointSpec} {bound bound' : Bound}
    {backend : Backend}
    (found : world.backends (readTarget spec).1 (readTarget spec).2 = .ok backend)
    (same : backendQuery world.crates backend.kind spec bound =
      backendQuery world.crates backend.kind spec bound')
    (cutOff : Bool) (idKv : Option (Str × Str)) (readRole : Str) :
    produce world cutOff spec bound idKv readRole =
      produce world cutOff spec bound' idKv readRole := by
  rw [produce, produce, fetchRows, fetchRows, found]
  simp only [bind, Except.bind, same]

/-- Requests for one query compute one body, whoever sends them. -/
theorem compute_same (world : World) {spec : EndpointSpec} {url : Request}
    {caller caller' : Option Identity} {cutOff : Bool} {bound bound' : Bound} {bytes bytes' : Bytes}
    {ifNoneMatch ifNoneMatch' : Option Str}
    (oneQuery : fedPeer world = none → ∀ kind query query',
      backendQuery world.crates kind spec bound = .ok query →
        backendQuery world.crates kind spec bound' = .ok query' →
          effectiveReadRole world spec (sent url caller none) =
              effectiveReadRole world spec (sent url caller' none) ∧ query = query')
    (first : compute world cutOff spec (sent url caller ifNoneMatch) bound = .ok bytes)
    (second : compute world cutOff spec (sent url caller' ifNoneMatch') bound' = .ok bytes') :
    bytes = bytes' := by
  rw [compute] at first second
  cases peer : fedPeer world with
  | some p =>
    simp only [peer, produceFederated] at first second
    rw [world.forward_origin p _ _ _
      (((sent url caller' ifNoneMatch').identity.map (fun i => ⟨i.sub, i.role⟩)).getD {})] at first
    exact Except.ok.inj (first.symm.trans second)
  | none =>
    simp only [peer] at first second
    obtain ⟨backend, query, found, lowered⟩ := produce_ok first
    obtain ⟨backend', query', found', lowered'⟩ := produce_ok second
    obtain rfl : backend = backend' := Except.ok.inj (found.symm.trans found')
    obtain ⟨role, rfl⟩ := oneQuery peer backend.kind query query' lowered lowered'
    have roles : effectiveReadRole world spec (sent url caller ifNoneMatch) =
        effectiveReadRole world spec (sent url caller' ifNoneMatch') := role
    rw [produce_congr found (lowered.trans lowered'.symm), roles] at first
    exact Except.ok.inj (first.symm.trans second)

/-- Of a safe URL, two fresh bodies at one moment are equal: what the tiers hold under the
key of each caller, or what is computed for it. -/
theorem body_eq_of_sharedSafely {world : World} {spec : EndpointSpec} {url : Request}
    {caller caller' : Option Identity} (safe : SharedSafely world spec url caller caller')
    (cached : spec.cache = true) (data : Data) {tiers : Tiers} {gen : Nat}
    (warmed : Warmed world spec gen tiers) {bound bound' : Bound} {cb cb' : CachedBody}
    (resolved : resolveRequest world spec (sent url caller none) = some (.ok bound))
    (resolved' : resolveRequest world spec (sent url caller' none) = some (.ok bound'))
    (body : (getOrCompute world.crates tiers
      (requestKey world gen spec (sent url caller none) bound) (spec.ttlDuration world.crates)
      (compute (withData world data) false spec (sent url caller none) bound)).1 = .ok cb)
    (body' : (getOrCompute world.crates tiers
      (requestKey world gen spec (sent url caller' none) bound') (spec.ttlDuration world.crates)
      (compute (withData world data) false spec (sent url caller' none) bound')).1 = .ok cb') :
    cb.bytes = cb'.bytes := by
  obtain ⟨answer, ran, ok, bytes, isPublic⟩ :=
    runSpec_of_body (withData world data) [] resolved cached body rfl
  obtain ⟨answer', ran', ok', bytes', -⟩ :=
    runSpec_of_body (withData world data) [] resolved' cached body' rfl
  rw [← bytes, ← bytes']
  exact safe data tiers gen false [] [] none none answer answer' warmed ran ran' ok ok' isPublic

/-- A moment at which every table has one row, by the query and the role, and every peer
one body. -/
def answering (kind : BackendKind) (row : BoundQuery → Str → JsonMap) (peerBody : Bytes) :
    Data where
  backends _ _ := .ok ⟨kind, fun query role => .ok [row query role]⟩
  forward _ _ _ _ := (200, peerBody)
  forward_origin _ _ _ _ _ := rfl

/-- A local computation renders the row of its query and role. -/
theorem compute_answering {world : World} {spec : EndpointSpec} (url : Request)
    (caller : Option Identity) {bound : Bound} {kind : BackendKind} {query : BoundQuery}
    (row : BoundQuery → Str → JsonMap) (peerBody : Bytes) (ownReads : fedPeer world = none)
    (lowered : backendQuery world.crates kind spec bound = .ok query) :
    compute (withData world (answering kind row peerBody)) false spec (sent url caller none)
        bound =
      renderRows world.crates spec (idEcho (mapOf url.pathParams))
        [row query (effectiveReadRole world spec (sent url caller none))] := by
  have own : fedPeer (withData world (answering kind row peerBody)) = none := ownReads
  have fetched : fetchRows (withData world (answering kind row peerBody)) false spec bound
      (effectiveReadRole world spec (sent url caller none)) =
        .ok [row query (effectiveReadRole world spec (sent url caller none))] := by
    simp only [fetchRows, withData, answering, bind, Except.bind, lowered]
    cases spec.queryTimeoutMs with
    | some _ => rfl
    | none => rfl
  rw [compute, own]
  simp only [produce]
  refine (congrArg (· >>= _) fetched).trans ?_
  rfl

/-- A forwarded computation answers with the body of the peer. -/
theorem compute_forwarded {world : World} (spec : EndpointSpec) (url : Request)
    (caller : Option Identity) (bound : Bound) (kind : BackendKind)
    (row : BoundQuery → Str → JsonMap) (peerBody : Bytes) {peer : Peer}
    (forwards : fedPeer world = some peer) :
    compute (withData world (answering kind row peerBody)) false spec (sent url caller none)
      bound = .ok peerBody := by
  have forwards' : fedPeer (withData world (answering kind row peerBody)) = some peer := forwards
  rw [compute, forwards']
  rfl

/-- At two moments one URL computes different bodies. -/
theorem compute_apart (world : World) (spec : EndpointSpec) (url : Request)
    (caller caller' : Option Identity) (bound bound' : Bound) : ∃ data data' bytes bytes',
    compute (withData world data) false spec (sent url caller none) bound = .ok bytes ∧
      compute (withData world data') false spec (sent url caller' none) bound' = .ok bytes' ∧
        bytes ≠ bytes' := by
  refine ⟨answering .postgres (fun _ _ => bareRow) [],
    answering .postgres (fun _ _ => filledRow) [newline], ?_⟩
  cases peer : fedPeer world with
  | some p =>
    exact ⟨[], [newline], compute_forwarded spec url caller bound _ _ _ peer,
      compute_forwarded spec url caller' bound' _ _ _ peer, by simp⟩
  | none =>
    obtain ⟨bytes, bytes', bare, filled, differ⟩ := renderRows_bare_filled world.crates spec url
    exact ⟨bytes, bytes', (compute_answering url caller _ _ peer rfl).trans bare,
      (compute_answering url caller' _ _ peer rfl).trans filled, differ⟩

/-- The tiers after the first body was computed. -/
theorem getOrCompute_cold (crates : Crates) (key : CacheKey) (ttl : Duration) (bytes : Bytes) :
    (getOrCompute crates ⟨fun _ => none, none⟩ key ttl (.ok bytes)).2 =
      ⟨fun k => if k = key then some (CachedBody.new crates bytes ttl) else none, none⟩ := rfl

/-- Where nothing is stored under the key, the computed bytes are answered. -/
theorem getOrCompute_computed {crates : Crates} {tiers : Tiers} {key : CacheKey} {ttl : Duration}
    {fresh : ApiResult Bytes} {bytes : Bytes} (absent : tiers.stored crates key ttl = none)
    (computed : fresh = .ok bytes) :
    (getOrCompute crates tiers key ttl fresh).1 = .ok (CachedBody.new crates bytes ttl) := by
  rw [getOrCompute_body, absent, computed]
  rfl

/-- Callers under different keys are told apart: the body of the first was kept before
the data changed, and that of the second is computed after. -/
theorem keys_eq_of_sharedSafely {world : World} {spec : EndpointSpec} {url : Request}
    {caller caller' : Option Identity} (safe : SharedSafely world spec url caller caller')
    (cached : spec.cache = true) {bound bound' : Bound}
    (resolved : resolveRequest world spec (sent url caller none) = some (.ok bound))
    (resolved' : resolveRequest world spec (sent url caller' none) = some (.ok bound')) :
    requestKey world 0 spec (sent url caller none) bound =
      requestKey world 0 spec (sent url caller' none) bound' := by
  by_contra apart
  obtain ⟨data, data', bytes, bytes', before, after, differ⟩ :=
    compute_apart world spec url caller caller' bound bound'
  have cold : Warmed world spec 0 ⟨fun _ => none, none⟩ := Warmed.cold none (by simp)
  have warmed := cold.after data false (sent url caller none) bound resolved
  rw [before, getOrCompute_cold] at warmed
  have kept : ∀ fresh, (getOrCompute world.crates
      ⟨fun k => if k = requestKey world 0 spec (sent url caller none) bound then
        some (CachedBody.new world.crates bytes (spec.ttlDuration world.crates)) else none, none⟩
      (requestKey world 0 spec (sent url caller none) bound) (spec.ttlDuration world.crates)
      fresh).1 = .ok (CachedBody.new world.crates bytes (spec.ttlDuration world.crates)) := by
    intro fresh
    rw [getOrCompute_body]
    simp [Tiers.stored]
  exact differ (body_eq_of_sharedSafely safe cached data' warmed resolved resolved' (kept _)
    (getOrCompute_computed (by simp [Tiers.stored, Ne.symm apart]) after))

/-- A row that tells one query under one role from every other. -/
def telling (query : BoundQuery) (role : Str) (asked : BoundQuery) (under : Str) : JsonMap :=
  if asked = query ∧ under = role then bareRow else filledRow

/-- Rows that depend on the query and the role tell apart callers whose queries differ. -/
theorem query_eq_of_sharedSafely {world : World} {spec : EndpointSpec} {url : Request}
    {caller caller' : Option Identity} (safe : SharedSafely world spec url caller caller')
    (cached : spec.cache = true) {bound bound' : Bound}
    (resolved : resolveRequest world spec (sent url caller none) = some (.ok bound))
    (resolved' : resolveRequest world spec (sent url caller' none) = some (.ok bound'))
    (ownReads : fedPeer world = none) {kind : BackendKind} {query query' : BoundQuery}
    (lowered : backendQuery world.crates kind spec bound = .ok query)
    (lowered' : backendQuery world.crates kind spec bound' = .ok query') :
    effectiveReadRole world spec (sent url caller none) =
        effectiveReadRole world spec (sent url caller' none) ∧ query = query' := by
  by_contra apart
  obtain ⟨bytes, bytes', bare, filled, differ⟩ := renderRows_bare_filled world.crates spec url
  have first := compute_answering url caller (telling query
    (effectiveReadRole world spec (sent url caller none))) [] ownReads lowered
  have second := compute_answering url caller' (telling query
    (effectiveReadRole world spec (sent url caller none))) [] ownReads lowered'
  rw [telling, if_pos ⟨rfl, rfl⟩, bare] at first
  rw [telling, if_neg (fun same => apart ⟨same.2.symm, same.1.symm⟩), filled] at second
  have cold : Warmed world spec 0 ⟨fun _ => none, none⟩ := Warmed.cold none (by simp)
  exact differ (body_eq_of_sharedSafely safe cached _ cold resolved resolved'
    (getOrCompute_computed rfl first) (getOrCompute_computed rfl second))

/-- Two callers of one URL can be served from one shared cache exactly where the response
is not marked public, or where they are one reader to the endpoint. -/
theorem shared_safely_iff (world : World) (spec : EndpointSpec) (url : Request)
    (caller caller' : Option Identity) :
    SharedSafely world spec url caller caller' ↔
      spec.cache = false ∨ SameQuery world spec url caller caller' := by
  constructor
  · intro safe
    by_cases cached : spec.cache = true
    · refine Or.inr (fun bound bound' resolved resolved' => ⟨?_, ?_⟩)
      · have keys := keys_eq_of_sharedSafely safe cached resolved resolved'
        exact congrArg CacheKey.paramsCanon keys
      · intro ownReads kind query query' lowered lowered'
        exact query_eq_of_sharedSafely safe cached resolved resolved' ownReads lowered lowered'
    · exact Or.inl (by simpa using cached)
  · rintro (uncached | same)
    · intro data tiers gen cutOff rid rid' ifNoneMatch ifNoneMatch' answer answer' _ ran _ ok _
        isPublic
      exact absurd isPublic (not_public_of_uncached ran ok uncached)
    · intro data tiers gen cutOff rid rid' ifNoneMatch ifNoneMatch' answer answer' _ ran ran' ok ok'
        isPublic
      obtain ⟨bound, cb, resolved, body, -, bytes⟩ := runSpec_ok ran ok
      obtain ⟨bound', cb', resolved', body', -, bytes'⟩ := runSpec_ok ran' ok'
      have cached : spec.cache = true := by
        by_contra uncached
        exact not_public_of_uncached ran ok (by simpa using uncached) isPublic
      rw [if_pos cached] at body body'
      obtain ⟨key, oneQuery⟩ := same bound bound' resolved resolved'
      have keys : requestKey (withData world data) gen spec (sent url caller ifNoneMatch) bound =
          requestKey (withData world data) gen spec (sent url caller' ifNoneMatch') bound' :=
        congrArg (CacheKey.mk spec.id gen) key
      rw [keys] at body
      have oneBody := getOrCompute_same (fun first second computed computed' =>
        compute_same (withData world data) oneQuery computed computed') body body'
      rw [bytes, bytes', oneBody]

/-- Holdings of the caller; responses are cached, as by default. -/
def holdings : EndpointSpec where
  id := "holdings".str
  path := "/holdings".str
  ttl := "5s".str
  sql := "SELECT owner FROM core.positions WHERE owner = :tenant".str
  selfTenant := true
  params := [{ name := "tenant".str, kind := .query, ty := "str".str }]

/-- Every table answers one row, which names the owner asked for. -/
def ownRows : World :=
  World.plain (fun query _ => .ok [[("owner".str, match query.binds with
    | [.text owner] => .string owner
    | _ => .null)]])

/-- A user without a role of note. -/
def user (sub : Str) : Option Identity := some { sub, role := "user".str }

/-- Asking for holdings is answered publicly with the rows of the caller. -/
theorem holdings_answer (sub : Str) (bytes : Bytes)
    (computed : (accepted ownRows holdings (sent {} (user sub) none)).bind (fun bound =>
      (compute ownRows false holdings (sent {} (user sub) none) bound).toOption) = some bytes) :
    ∃ answer, runSpec ownRows Tiers.cold 0 false [] holdings (sent {} (user sub) none) =
        some answer ∧ answer.status = 200 ∧ answer.body = bytes ∧ Public answer := by
  obtain ⟨bound, found, isOk⟩ := Option.bind_eq_some_iff.mp computed
  have fresh : compute ownRows false holdings (sent {} (user sub) none) bound = .ok bytes := by
    cases result : compute ownRows false holdings (sent {} (user sub) none) bound with
    | error e => simp [result, Except.toOption] at isOk
    | ok rendered => simpa [result, Except.toOption] using isOk
  exact runSpec_of_body ownRows [] (resolveRequest_of_accepted found) rfl
    (getOrCompute_computed rfl fresh) rfl

/-- One URL, publicly cached, answers `alice` and `bob` with rows of their own. -/
theorem holdings_shared : ∃ answer answer',
    runSpec ownRows Tiers.cold 0 false [] holdings (sent {} (user "alice".str) none) =
        some answer ∧
      runSpec ownRows Tiers.cold 0 false [] holdings (sent {} (user "bob".str) none) =
        some answer' ∧
      answer.body = Text.utf8 "[\x7b\"owner\":\"alice\"\x7d]".str ∧
      answer'.body = Text.utf8 "[\x7b\"owner\":\"bob\"\x7d]".str ∧
      ¬SharedSafely ownRows holdings {} (user "alice".str) (user "bob".str) := by
  obtain ⟨answer, ran, ok, body, isPublic⟩ := holdings_answer "alice".str
    (Text.utf8 "[\x7b\"owner\":\"alice\"\x7d]".str) (by decide +kernel)
  obtain ⟨answer', ran', ok', body', -⟩ := holdings_answer "bob".str
    (Text.utf8 "[\x7b\"owner\":\"bob\"\x7d]".str) (by decide +kernel)
  refine ⟨answer, answer', ran, ran', body, body', fun safe => ?_⟩
  have cold : Warmed ownRows holdings 0 Tiers.cold := Warmed.cold none (by simp)
  have same := safe ⟨ownRows.backends, ownRows.forward, ownRows.forward_origin⟩ Tiers.cold 0 false
    [] [] none none answer answer' cold ran ran' ok ok' isPublic
  rw [body, body'] at same
  exact absurd same (by decide)

end LumidPlatform.Read.SharedResponses
