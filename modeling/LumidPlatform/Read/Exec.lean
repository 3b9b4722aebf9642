import LumidPlatform.Auth
import LumidPlatform.Backend
import LumidPlatform.Read.Bind
import LumidPlatform.Read.Cache

/-!
# Executing a read endpoint

One handler serves every specification: it reads the path and query maps, supplies
the tenant of a self-scoped endpoint, resolves the request, decides the read role,
and answers from the cache or by running the query. What lies outside the process
is a `World`: the backends with the database behind them, the peers, the settings.
A query that a per-specification time limit cuts off is an argument of the run.
-/

namespace LumidPlatform.Read.Exec

open LumidPlatform.Read.Spec LumidPlatform.Read.Dialect LumidPlatform.Read.Bind
  LumidPlatform.Read.Cache

/-! ## The outside -/

/-- The identity sent along to a peer. -/
structure OriginIdentity where
  sub : Str := []
  role : Str := []
  deriving DecidableEq

/-- A query as a backend receives it. -/
structure BoundQuery where
  sql : Str
  binds : List BindValue
  preLowered : Bool
  deriving DecidableEq

/-- A storage backend over one database snapshot. -/
structure Backend where
  kind : BackendKind
  queryRowsAsRole : BoundQuery → Str → ApiResult (List JsonMap)

structure Peer where
  id : Str
  baseUrl : Str
  token : Str
  deriving DecidableEq

/-- Settings, backends and peers. A peer receives the origin identity for the
record; no instance reads it to decide an answer. -/
structure World where
  crates : Crates
  adminReadRole : Str := []
  readFederate : Option Str := none
  peer : Str → Option Peer := fun _ => none
  /-- Status and body of a peer's answer. -/
  forward : Peer → Str → Option Str → OriginIdentity → Nat × Bytes := fun _ _ _ _ => (502, [])
  backends : Str → Str → ApiResult Backend
  forward_origin : ∀ p path query origin origin',
    forward p path query origin = forward p path query origin' := by intros; rfl

/-- What databases and peers answer at one moment. -/
structure Data where
  backends : Str → Str → ApiResult Backend
  forward : Peer → Str → Option Str → OriginIdentity → Nat × Bytes
  forward_origin : ∀ p path query origin origin',
    forward p path query origin = forward p path query origin'

/-- The world at a moment. -/
def withData (world : World) (data : Data) : World :=
  { world with
    backends := data.backends
    forward := data.forward
    forward_origin := data.forward_origin }

/-- A request, after routing. -/
structure Request where
  pathParams : List (Str × Str) := []
  rawQuery : Option Str := none
  uriPath : Str := []
  identity : Option Identity := none
  ifNoneMatch : Option Str := none

/-! ## Query strings -/

def hexDigit (b : UInt8) : Option Nat :=
  if 48 ≤ b ∧ b ≤ 57 then some (b.toNat - 48)
  else if 65 ≤ b ∧ b ≤ 70 then some (b.toNat - 55)
  else if 97 ≤ b ∧ b ≤ 102 then some (b.toNat - 87)
  else none

/-- The byte that two hexadecimal digits spell. -/
def hexPair (high low : UInt8) : Option UInt8 :=
  match hexDigit high, hexDigit low with
  | some h, some l => some (UInt8.ofNat (h * 16 + l))
  | _, _ => none

/-- The bytes of `pct_decode`. Slicing two bytes after a percent sign panics when a
multi-byte character begins at the second of them. -/
def pctDecodeBytes : Bytes → Option Bytes
  | [] => some []
  | b :: high :: low :: rest =>
    if b = 37 then
      if rest.head?.any Text.isContinuation then none
      else
        match hexPair high low with
        | some byte => (pctDecodeBytes rest).map (byte :: ·)
        | none => (pctDecodeBytes (high :: low :: rest)).map (b :: ·)
    else (pctDecodeBytes (high :: low :: rest)).map (b :: ·)
  | b :: rest => (pctDecodeBytes rest).map (b :: ·)

/-- `pct_decode`; `none` is a panic. -/
def pctDecode (s : Str) : Option Str :=
  (pctDecodeBytes (Text.utf8 (s.map (fun c => if c = '+' then ' ' else c)))).map
    Text.fromUtf8Lossy

/-- One `k=v` pair of a query string, decoded. -/
def parsePair (pair : Str) : Option (Str × Str) :=
  let parts := (Text.splitOnce '=' pair).getD (pair, [])
  match pctDecode parts.1, pctDecode parts.2 with
  | some k, some v => some (k, v)
  | _, _ => none

/-- `parse_query`: a later pair replaces an earlier one of its name. -/
def parseQuery : Option Str → Option (HashMap Str)
  | none => some ∅
  | some q =>
    (((q.splitOn '&').filter (fun pair => !pair.isEmpty)).mapM parsePair).map mapOf

/-! ## Scope of a caller -/

/-- `admin_read_elevation`. -/
def adminReadElevation (spec : EndpointSpec) (adminReadRole callerRole : Str) : Option Str :=
  let role := Text.trim adminReadRole
  if spec.adminCrossTenant && !role.isEmpty &&
      (callerRole == "admin".str || callerRole == "super_admin".str || callerRole == "local".str)
  then some role
  else none

def callerSub (request : Request) : Str := (request.identity.map Identity.sub).getD []

def callerRole (request : Request) : Str := (request.identity.map Identity.role).getD []

/-- The role the query runs under; empty for the ordinary path. -/
def effectiveReadRole (world : World) (spec : EndpointSpec) (request : Request) : Str :=
  (adminReadElevation spec world.adminReadRole (callerRole request)).getD []

/-- The query map after the tenant of a self-scoped endpoint is supplied. -/
def scopedQuery (world : World) (spec : EndpointSpec) (request : Request)
    (query : HashMap Str) : ApiResult (HashMap Str) :=
  if spec.selfTenant &&
      (adminReadElevation spec world.adminReadRole (callerRole request)).isNone then
    if (callerSub request).isEmpty then
      .error (.forbidden
        "this endpoint is self-tenant scoped and the caller has no subject".str)
    else .ok (query.insert "tenant".str (callerSub request))
  else .ok query

/-- `id_echo`: the path parameter an envelope repeats. -/
def idEcho (path : HashMap Str) : Option (Str × Str) :=
  match path.lookup "key".str with
  | some v => some ("key".str, v)
  | none => (path.lookup "symbol".str).map (fun v => ("symbol".str, v))

/-! ## Computing a body -/

/-- `read_target`: the first declared table. -/
def readTarget (spec : EndpointSpec) : Str × Str :=
  match spec.tables with
  | t :: _ => (Text.splitOnce '.' t).getD ([], t)
  | [] => ([], [])

/-- The dialect that `produce` lowers with: its sort key is that of the stored query. -/
def dialectOf (spec : EndpointSpec) : ClickHouseDialect :=
  ⟨spec.chFinal, (spec.ir.map (fun ir => ir.orderBy.map Ir.OrderItem.expr)).getD []⟩

/-- The query a backend is handed: ClickHouse gets the lowered query form where the
specification has one, and every other backend the Postgres text. -/
def backendQuery (crates : Crates) (kind : BackendKind) (spec : EndpointSpec) (bound : Bound) :
    ApiResult BoundQuery :=
  match kind, spec.ir with
  | .clickHouse, some ir =>
    let dialect : ClickHouseDialect := ⟨spec.chFinal, ir.orderBy.map Ir.OrderItem.expr⟩
    (dialect.lower crates bound.substituted bound.valueMap spec.ir).map
      (fun lowered => ⟨lowered.sql, lowered.values, true⟩)
  | _, _ => .ok ⟨bound.sql, bound.values, false⟩

def hiddenColumns : List Str := ["source".str, "source_endpoint".str, "source_run_id".str, "raw".str]

def stripLineage (row : JsonMap) : JsonMap :=
  hiddenColumns.foldl (fun kept column => JsonMap.remove column kept) row

def stripLineageRows (rows : List JsonMap) : List JsonMap := rows.map stripLineage

/-- The JSON value of a list of rows. -/
def rowsValue (objs : List JsonMap) : Json := .array (objs.map .object)

def shape (spec : EndpointSpec) (objs : List JsonMap) (idKv : Option (Str × Str)) :
    ApiResult Json :=
  match spec.shape with
  | .rows => .ok (rowsValue objs)
  | .one =>
    match objs with
    | o :: _ => .ok (.object o)
    | [] => .error (.notFound "not found".str)
  | .envelope =>
    let echoed : JsonMap := match idKv with
      | some (name, v) => JsonMap.insert name (.string v) []
      | none => []
    .ok (.object (JsonMap.insert (spec.envelopeKey.getD "data".str) (rowsValue objs)
      (JsonMap.insert "count".str (Json.ofNat objs.length) echoed)))

/-- The rows `produce` shapes: those of the query, or none when the time limit of the
specification cut it off. -/
def fetchRows (world : World) (cutOff : Bool) (spec : EndpointSpec) (bound : Bound)
    (readRole : Str) : ApiResult (List JsonMap) := do
  let backend ← world.backends (readTarget spec).1 (readTarget spec).2
  let query ← backendQuery world.crates backend.kind spec bound
  match spec.queryTimeoutMs with
  | some _ => if cutOff then .ok [] else backend.queryRowsAsRole query readRole
  | none => backend.queryRowsAsRole query readRole

/-- The body a list of fetched rows is answered with. -/
def renderRows (crates : Crates) (spec : EndpointSpec) (idKv : Option (Str × Str))
    (objs : List JsonMap) : ApiResult Bytes :=
  let kept := if spec.stripLineage then stripLineageRows objs else objs
  (shape spec kept idKv).map crates.toVec

def produce (world : World) (cutOff : Bool) (spec : EndpointSpec) (bound : Bound)
    (idKv : Option (Str × Str)) (readRole : Str) : ApiResult Bytes := do
  let objs ← fetchRows world cutOff spec bound readRole
  renderRows world.crates spec idKv objs

/-- The message of a peer's error. -/
def peerDetail (crates : Crates) (status : Nat) (bytes : Bytes) : Str :=
  let stated := (crates.fromSlice bytes).bind (fun v =>
    (v.asObject?.bind (fun map => JsonMap.get map "detail".str)).bind Json.asStr?)
  stated.getD ("federation peer returned ".str ++ Text.showNat status)

/-- `produce_federated`: the answer of a peer, errors by their class. -/
def produceFederated (world : World) (peer : Peer) (path : Str) (query : Option Str)
    (origin : OriginIdentity) : ApiResult Bytes :=
  let answer := world.forward peer path query origin
  if 200 ≤ answer.1 ∧ answer.1 < 300 then .ok answer.2
  else
    let detail := peerDetail world.crates answer.1 answer.2
    if answer.1 = 404 then .error (.notFound detail)
    else if answer.1 = 400 then .error (.badRequest detail)
    else if answer.1 = 401 ∨ answer.1 = 403 then .error (.forbidden detail)
    else .error (.unavailable detail)

/-! ## Answering -/

/-- The two cache tiers as one request finds them. Redis may be absent. -/
structure Tiers where
  l1 : CacheKey → Option CachedBody
  l2 : Option (Str → Option Bytes)

/-- Nothing cached, no Redis. -/
def Tiers.cold : Tiers := ⟨fun _ => none, none⟩

/-- `get_or_compute` with no other request in flight: the body, and the tiers after. -/
def getOrCompute (crates : Crates) (tiers : Tiers) (key : CacheKey) (ttl : Duration)
    (compute : ApiResult Bytes) : ApiResult CachedBody × Tiers :=
  let keep := fun body : CachedBody => fun k => if k = key then some body else tiers.l1 k
  match tiers.l1 key with
  | some body => (.ok body, tiers)
  | none =>
    match tiers.l2.bind (fun entries =>
        (entries (key.redisKey crates)).bind (fun raw => decodeL2 raw ttl)) with
    | some body => (.ok body, { tiers with l1 := keep body })
    | none =>
      match compute with
      | .error e => (.error e, tiers)
      | .ok bytes =>
        let body := CachedBody.new crates bytes ttl
        let stored := tiers.l2.map (fun entries name =>
          if name = key.redisKey crates then some (encodeL2 body) else entries name)
        (.ok body, ⟨keep body, stored⟩)

/-- The body the tiers hold under a key. -/
def Tiers.stored (crates : Crates) (tiers : Tiers) (key : CacheKey) (ttl : Duration) :
    Option CachedBody :=
  (tiers.l1 key).or (tiers.l2.bind (fun entries =>
    (entries (key.redisKey crates)).bind (fun raw => decodeL2 raw ttl)))

/-- A stored body is answered; where there is none the computed one is, or its error. -/
theorem getOrCompute_body (crates : Crates) (tiers : Tiers) (key : CacheKey) (ttl : Duration)
    (compute : ApiResult Bytes) :
    (getOrCompute crates tiers key ttl compute).1 =
      match tiers.stored crates key ttl with
      | some body => .ok body
      | none => compute.map (fun bytes => CachedBody.new crates bytes ttl) := by
  simp only [getOrCompute, Tiers.stored]
  cases tiers.l1 key with
  | some body => rfl
  | none =>
    rw [Option.none_or]
    cases tiers.l2.bind (fun entries =>
        (entries (key.redisKey crates)).bind (fun raw => decodeL2 raw ttl)) with
    | some body => rfl
    | none =>
      cases compute with
      | error e => rfl
      | ok bytes => rfl

def cacheControl (crates : Crates) (spec : EndpointSpec) : Str :=
  if spec.cache then "public, max-age=".str ++ Text.showNat (spec.ttlDuration crates).asSecs
  else "no-store".str

def respond (crates : Crates) (cb : CachedBody) (spec : EndpointSpec)
    (ifNoneMatch : Option Str) : Response :=
  let etag := ("etag".str, cb.etag)
  let control := ("cache-control".str, cacheControl crates spec)
  if ifNoneMatch.any (fun inm => (inm.splitOn ',').any (fun t => Text.trim t == cb.etag)) then
    ⟨304, [etag, control], []⟩
  else ⟨200, [("content-type".str, "application/json".str), etag, control], cb.bytes⟩

/-- The canonical text in the cache key: that of the request, marked with the read
role of an elevated caller. -/
def keyCanon (canon readRole : Str) : Str :=
  if readRole.isEmpty then canon else canon ++ Char.ofNat 1 :: "admin_read=".str ++ readRole

/-- The peer reads are forwarded to, where one is configured. -/
def fedPeer (world : World) : Option Peer := world.readFederate.bind world.peer

/-- The body of a resolved request, computed afresh. -/
def compute (world : World) (cutOff : Bool) (spec : EndpointSpec) (request : Request)
    (bound : Bound) : ApiResult Bytes :=
  match fedPeer world with
  | some peer =>
    produceFederated world peer request.uriPath request.rawQuery
      ((request.identity.map (fun i => ⟨i.sub, i.role⟩)).getD {})
  | none =>
    produce world cutOff spec bound (idEcho (mapOf request.pathParams))
      (effectiveReadRole world spec request)

/-- The query map of the caller. `none` is a panic while the query string is decoded. -/
def ownQuery (world : World) (spec : EndpointSpec) (request : Request) :
    Option (ApiResult (HashMap Str)) :=
  (parseQuery request.rawQuery).map (scopedQuery world spec request)

/-- `run_spec` up to resolution. -/
def resolveRequest (world : World) (spec : EndpointSpec) (request : Request) :
    Option (ApiResult Bound) :=
  (ownQuery world spec request).map (fun own => do
    let query ← own
    resolve world.crates spec (mapOf request.pathParams) query)

/-- The resolution of a request, where there is one. -/
def accepted (world : World) (spec : EndpointSpec) (request : Request) : Option Bound :=
  (resolveRequest world spec request).bind Except.toOption

theorem resolveRequest_of_accepted {world : World} {spec : EndpointSpec} {request : Request}
    {bound : Bound} (found : accepted world spec request = some bound) :
    resolveRequest world spec request = some (.ok bound) := by
  obtain ⟨outcome, resolved, isOk⟩ := Option.bind_eq_some_iff.mp found
  cases outcome with
  | error e => simp [Except.toOption] at isOk
  | ok result =>
    obtain rfl : result = bound := Option.some.inj isOk
    exact resolved

/-- A request that resolves does so from its own query map. -/
theorem resolveRequest_ok {world : World} {spec : EndpointSpec} {request : Request}
    {bound : Bound} (resolved : resolveRequest world spec request = some (.ok bound)) :
    ∃ query, ownQuery world spec request = some (.ok query) ∧
      resolve world.crates spec (mapOf request.pathParams) query = .ok bound := by
  obtain ⟨own, sent, isOk⟩ := Option.map_eq_some_iff.mp resolved
  cases own with
  | error e => simp [bind, Except.bind] at isOk
  | ok query => exact ⟨query, sent, isOk⟩

/-- The key a resolved request is cached under, at the current generation. -/
def requestKey (world : World) (gen : Nat) (spec : EndpointSpec) (request : Request)
    (bound : Bound) : CacheKey :=
  ⟨spec.id, gen, keyCanon bound.canon (effectiveReadRole world spec request)⟩

/-- `run_spec`; `rid` is the random id of an internal error. -/
def runSpec (world : World) (tiers : Tiers) (gen : Nat) (cutOff : Bool) (rid : Str)
    (spec : EndpointSpec) (request : Request) : Option Response :=
  (resolveRequest world spec request).map (fun resolved =>
    match resolved with
    | .error e => e.intoResponse world.crates rid
    | .ok bound =>
      let ttl := spec.ttlDuration world.crates
      let fresh := compute world cutOff spec request bound
      let body := if spec.cache then
          (getOrCompute world.crates tiers (requestKey world gen spec request bound) ttl fresh).1
        else fresh.map (fun bytes => CachedBody.new world.crates bytes ttl)
      match body with
      | .ok cb => respond world.crates cb spec request.ifNoneMatch
      | .error e => e.intoResponse world.crates rid)

/-- Where no peer is reached, its answer does not depend on whose origin is told. -/
theorem unreachable_alike (_ : Peer) (_ : Str) (_ : Option Str) (_ _ : OriginIdentity) :
    ((502, []) : Nat × Bytes) = (502, []) := rfl

/-- A world of one Postgres backend that answers every query by a fixed function. -/
def World.plain (answer : BoundQuery → Str → ApiResult (List JsonMap)) : World where
  crates := Crates.plain
  backends _ _ := .ok ⟨.postgres, answer⟩
  forward_origin := unreachable_alike

end LumidPlatform.Read.Exec
