import LumidPlatform.Lib.Assoc
import LumidPlatform.Mcp.Nesting
import LumidPlatform.Mcp.Tools
import LumidPlatform.Read.QueryStrings

/-!
# Tools and requests for one endpoint

A call of a tool and a GET with its arguments build the same maps for the parameters, and then
run the same read. They differ in three ways. The names of tools are not told apart as the ids
are, so a call can run another endpoint. A call reads its own body back, which fails on one that
is nested too deeply. And where reads are forwarded to a peer, a call still runs here.
-/

namespace LumidPlatform.Mcp

open Read Read.Spec Read.Exec Read.Bind

/-! ## Calls and requests -/

/-- One of the loaded specifications, whose ids are told apart, that is not scoped to its
caller. -/
structure Served where
  specs : List EndpointSpec
  spec : EndpointSpec
  member : spec ∈ specs
  distinct : (specs.map EndpointSpec.id).Nodup
  shared : spec.selfTenant = false

/-- The arguments of a call: an object, so one value a name. -/
structure Arguments where
  map : JsonMap
  distinct : (map.map Prod.fst).Nodup

/-- The parameters of `tools/call`. -/
def callParams (name : Str) (args : Arguments) : Json :=
  .object [("name".str, .string name), ("arguments".str, .object args.map)]

/-- A parameter of that name is declared for a place. -/
def declared (spec : EndpointSpec) (kind : Kind) (name : Str) : Bool :=
  spec.params.any fun p => p.name = name && p.kind = kind

/-- The text of an argument that is given and is not null. -/
def Arguments.text (args : Arguments) (crates : Crates) (name : Str) : Option Str :=
  (JsonMap.get args.map name).bind (argText crates)

/-- The pairs of the query: all arguments but those that belong to the path alone. -/
def Arguments.queryPairs (args : Arguments) (crates : Crates) (spec : EndpointSpec)
    (captured : List Str) : List (Str × Str) :=
  args.map.filterMap fun entry =>
    if captured.contains entry.1 && !declared spec .query entry.1 then none
    else (argText crates entry.2).map fun text => (entry.1, text)

/-- A GET of the endpoint, by a caller who is not elevated, with the arguments in its path and, in
some encoding and order, in its query. The route captures some names, which nothing compares with
the parameters that are declared for the path. -/
structure Asked (crates : Crates) (adminReadRole : Str) (spec : EndpointSpec)
    (args : Arguments) where
  captured : List Str
  request : Request
  path : ∀ name, (mapOf request.pathParams).lookup name =
    if name ∈ captured then args.text crates name else none
  query : ∃ pairs, pairs.Perm (args.queryPairs crates spec captured) ∧
    ((request.rawQuery = none ∧ pairs = []) ∨
      ∃ query, request.rawQuery = some query ∧ QueryStrings.EncodesQuery pairs query)
  plain : adminReadElevation spec adminReadRole (callerRole request) = none
  unconditional : request.ifNoneMatch = none

/-- A GET in a world. -/
abbrev AskedIn (world : World) (spec : EndpointSpec) (args : Arguments) :=
  Asked world.crates world.adminReadRole spec args

variable {world : World} {spec : EndpointSpec} {args : Arguments}

/-- Every place of the route has a text. The router takes no segment for an empty one. -/
def Asked.found {crates : Crates} {role : Str} (asked : Asked crates role spec args) : Bool :=
  asked.captured.all (fun name => (args.text crates name).any (fun text => !text.isEmpty))

/-- The answer to a path that has no route. -/
def unrouted : Response := ⟨404, [], []⟩

/-- What the request is answered, with nothing cached. -/
def Asked.answer (asked : AskedIn world spec args) (gen : Nat) (cutOff : Bool) (rid : Str) :
    Option Response :=
  if asked.found then runSpec world Tiers.cold gen cutOff rid spec asked.request
  else some unrouted

/-- What the tool of the endpoint is answered. -/
def Served.called (served : Served) (world : World) (cutOff : Bool) (args : Arguments) : Json :=
  toolsCall world cutOff (registryFromSpecs served.specs) (callParams (toolName served.spec) args)

/-- The tool of the endpoint is its own, returns the value that the request returns, and fails
when the request fails. -/
structure Agree (world : World) (gen : Nat) (cutOff : Bool) (rid : Str) (served : Served)
    (args : Arguments) (asked : AskedIn world served.spec args) : Prop where
  own : (registryFromSpecs served.specs).find (toolName served.spec) =
    some (toolFromSpec served.spec)
  returned : ∀ response, asked.answer gen cutOff rid = some response → response.status = 200 →
    ∃ value, world.crates.fromSlice response.body = some value ∧
      served.called world cutOff args = toolResult world.crates value
  failed : (∀ response, asked.answer gen cutOff rid = some response → response.status ≠ 200) →
    ∃ text, served.called world cutOff args = toolError text

/-- They agree, whatever the peers of the instance answer. -/
def Agrees (world : World) (gen : Nat) (cutOff : Bool) (rid : Str) (served : Served)
    (args : Arguments) (asked : AskedIn world served.spec args) : Prop :=
  ∀ data : Data, data.backends = world.backends →
    Agree (withData world data) gen cutOff rid served args asked

/-! ## When they agree -/

/-- What the arguments of a call resolve to. -/
def Served.resolved (served : Served) (world : World) (args : Arguments) : ApiResult Bound :=
  resolve world.crates served.spec (splitArgs world.crates served.spec args.map).1
    (splitArgs world.crates served.spec args.map).2

/-- The path parameter that the envelope of a call repeats. -/
def Served.echo (served : Served) (world : World) (args : Arguments) : Option (Str × Str) :=
  idEcho (splitArgs world.crates served.spec args.map).1

/-- The path parameter that the envelope of an answer repeats. -/
def Asked.echo {crates : Crates} {role : Str} (asked : Asked crates role spec args) :
    Option (Str × Str) :=
  idEcho (mapOf asked.request.pathParams)

/-- The path has a place for every argument of a path parameter, and every place an argument. -/
def Asked.Routed {crates : Crates} {role : Str} (asked : Asked crates role spec args) : Prop :=
  (∀ p ∈ spec.params, p.kind = .path → (args.text crates p.name).isSome = true →
    p.name ∈ asked.captured) ∧ asked.found = true

/-- The rows that are read here for the arguments. -/
def Served.fetched (served : Served) (world : World) (cutOff : Bool) (args : Arguments) :
    ApiResult (List JsonMap) :=
  (served.resolved world args).bind fun bound => fetchRows world cutOff served.spec bound []

/-- The arguments are accepted, and the database has rows of the endpoint's shape for them. -/
def Served.Answered (served : Served) (world : World) (cutOff : Bool) (args : Arguments)
    (rows : List JsonMap) : Prop :=
  served.fetched world cutOff args = .ok rows ∧ (served.spec.shape = .one → rows ≠ [])

/-- The levels of the body in which rows are answered. -/
def bodyDepth (spec : EndpointSpec) (rows : List JsonMap) : Nat :=
  let kept := if spec.stripLineage then stripLineageRows rows else rows
  match spec.shape with
  | .rows => (rowsValue kept).depth
  | .one => (kept.head?.map (fun row => Json.depth (.object row))).getD 0
  | .envelope => (rowsValue kept).depth + 1

/-- The condition of the agreement. -/
structure Aligned (world : World) (cutOff : Bool) (served : Served) (args : Arguments)
    (asked : AskedIn world served.spec args) : Prop where
  /-- No specification before it has an id that reads the same with underscores for dots. -/
  first : ∃ before after, served.specs = before ++ served.spec :: after ∧
    ∀ other ∈ before, toolName other ≠ toolName served.spec
  /-- Requests that are accepted are not forwarded. -/
  here : ∀ bound, served.resolved world args = .ok bound → asked.Routed → fedPeer world = none
  /-- Rows that can be read back have a route. -/
  routed : ∀ rows, served.Answered world cutOff args rows →
    bodyDepth served.spec rows < recursionLimit → asked.Routed
  /-- Rows that have a route can be read back. -/
  shallow : ∀ rows, served.Answered world cutOff args rows → asked.Routed →
    bodyDepth served.spec rows < recursionLimit
  /-- An envelope repeats the parameter that the route captures. -/
  repeated : ∀ rows, served.Answered world cutOff args rows → asked.Routed →
    served.spec.shape = .envelope → asked.echo = served.echo world args

/-! ## The maps of a call -/

/-- A declared parameter is one of the spec's. -/
theorem declared_iff {kind : Kind} {name : Str} :
    declared spec kind name = true ↔ ∃ p ∈ spec.params, p.name = name ∧ p.kind = kind := by
  simp [declared]

/-- The map of a place. -/
def placed (maps : HashMap Str × HashMap Str) : Kind → HashMap Str
  | .path => maps.1
  | .query => maps.2

/-- A parameter puts its text down under its name, in its place. -/
theorem lookup_splitArg (crates : Crates) (args : Arguments) (maps : HashMap Str × HashMap Str)
    (p : ParamSpec) (kind : Kind) (name : Str) :
    (placed (splitArg crates args.map maps p) kind).lookup name =
      if p.name = name ∧ p.kind = kind then
        (args.text crates name).or ((placed maps kind).lookup name)
      else (placed maps kind).lookup name := by
  have shown : (JsonMap.get args.map p.name).bind (argText crates) = args.text crates p.name := rfl
  rw [splitArg, shown]
  cases given : args.text crates p.name with
  | none =>
    split_ifs with here
    · rw [← here.1, given, Option.none_or]
    · rfl
  | some text =>
    by_cases named : p.name = name
    · subst named
      rw [given]
      cases place : p.kind <;> cases kind <;> simp [placed]
    · rw [if_neg fun here => named here.1]
      cases place : p.kind <;> cases kind <;>
        simp [placed, AList.lookup_insert_ne (Ne.symm named)]

/-- The maps of a call hold the texts of the declared parameters that are given. -/
theorem lookup_splitArgs (crates : Crates) (spec : EndpointSpec) (args : Arguments) (kind : Kind)
    (name : Str) : (placed (splitArgs crates spec args.map) kind).lookup name =
      if declared spec kind name then args.text crates name else none := by
  rw [splitArgs, declared]
  induction spec.params using List.reverseRecOn with
  | nil => cases kind <;> rfl
  | append_singleton before p inductionHypothesis =>
    rw [List.foldl_append, List.foldl_cons, List.foldl_nil, lookup_splitArg, inductionHypothesis,
      List.any_append]
    by_cases here : p.name = name ∧ p.kind = kind
    · rw [if_pos here]
      cases args.text crates name <;> simp [here]
    · rw [if_neg here]
      simp [here]

/-! ## The maps of a request -/

/-- The text of an argument is that of its value. -/
theorem text_eq_some {crates : Crates} {name text : Str} :
    args.text crates name = some text ↔
      ∃ value, (name, value) ∈ args.map ∧ argText crates value = some text := by
  rw [Arguments.text, JsonMap.get, Option.bind_eq_some_iff]
  exact exists_congr fun value => and_congr_left' (Assoc.lookup_eq_some_iff args.distinct)

/-- The query string has a declared parameter exactly if an argument has a text for it. -/
theorem mem_queryPairs {crates : Crates} {captured : List Str} {name text : Str}
    (read : declared spec .query name = true) :
    (name, text) ∈ args.queryPairs crates spec captured ↔ args.text crates name = some text := by
  rw [text_eq_some, Arguments.queryPairs, List.mem_filterMap]
  constructor
  · rintro ⟨⟨other, value⟩, member, kept⟩
    split_ifs at kept
    obtain ⟨found, shown, same⟩ := Option.map_eq_some_iff.mp kept
    obtain ⟨rfl, rfl⟩ := Prod.mk.inj same
    exact ⟨value, member, shown⟩
  · rintro ⟨value, member, shown⟩
    refine ⟨(name, value), member, ?_⟩
    simp [read, shown]

/-- It has none of them twice. -/
theorem queryPairs_distinct (crates : Crates) (captured : List Str) :
    ((args.queryPairs crates spec captured).map Prod.fst).Nodup := by
  refine List.Nodup.sublist ?_ args.distinct
  rw [Arguments.queryPairs, List.map_filterMap]
  induction args.map with
  | nil => exact .slnil
  | cons entry rest inductionHypothesis =>
    rw [List.filterMap_cons, List.map_cons]
    split
    · exact inductionHypothesis.cons _
    · rename_i name kept
      obtain ⟨pair, found, rfl⟩ := Option.map_eq_some_iff.mp kept
      split_ifs at found
      obtain ⟨text, -, rfl⟩ := Option.map_eq_some_iff.mp found
      exact inductionHypothesis.cons_cons _

/-- The query of a request is read into a map of its own, with the texts of the arguments. -/
theorem Asked.parsed (asked : AskedIn world spec args) :
    ∃ query, parseQuery asked.request.rawQuery = some query ∧
      ∀ name, declared spec .query name = true →
        query.lookup name = args.text world.crates name := by
  obtain ⟨pairs, same, written⟩ := asked.query
  have distinct : (pairs.map Prod.fst).Nodup :=
    (same.map Prod.fst).nodup_iff.mpr (queryPairs_distinct _ _)
  refine ⟨mapOf pairs, ?_, fun name read => ?_⟩
  · obtain ⟨none, rfl⟩ | ⟨query, some, encoded⟩ := written
    · rw [none]
      rfl
    · rw [some]
      exact QueryStrings.parseQuery_encodes encoded
  · refine Option.ext fun text => ?_
    rw [QueryStrings.lookup_mapOf distinct, same.mem_iff, mem_queryPairs read]

/-! ## Resolving both -/

/-- A resolution reads no more of the maps than the texts they give the parameters. -/
theorem resolve_congr (crates : Crates) {path path' query query' : HashMap Str}
    (same : ∀ p ∈ spec.params, rawValue path query p = rawValue path' query' p) :
    resolve crates spec path query = resolve crates spec path' query' := by
  have collected (params : List ParamSpec) (inside : ∀ p ∈ params, p ∈ spec.params) : ∀ acc,
      collectFrom crates path query acc params = collectFrom crates path' query' acc params := by
    induction params with
    | nil =>
      intro acc
      rfl
    | cons p rest inductionHypothesis =>
      intro acc
      have first : outcome crates path query p = outcome crates path' query' p := by
        rw [outcome, outcome, same p (inside p List.mem_cons_self)]
      have later := inductionHypothesis fun q member => inside q (List.mem_cons_of_mem p member)
      rw [collectFrom, collectFrom, first]
      simp only [later]
  rw [resolve, resolve, collected spec.params fun p member => member]

/-- What the call reads as a parameter is the argument's text. -/
theorem rawValue_call (crates : Crates) (args : Arguments) {p : ParamSpec}
    (member : p ∈ spec.params) :
    rawValue (splitArgs crates spec args.map).1 (splitArgs crates spec args.map).2 p =
      match p.kind with
      | .path => args.text crates p.name
      | .query => (args.text crates p.name).or (defaultStr p) := by
  have read : declared spec p.kind p.name = true := declared_iff.mpr ⟨p, member, rfl, rfl⟩
  have found := lookup_splitArgs crates spec args p.kind p.name
  rw [if_pos read] at found
  cases place : p.kind with
  | path =>
    rw [place] at found
    rw [rawValue, place]
    exact found
  | query =>
    rw [place] at found
    rw [rawValue, place]
    exact congrArg (Option.or · (defaultStr p)) found

/-- A request whose path has the places resolves as the call does. -/
theorem resolve_request (asked : AskedIn world spec args) (routed : asked.Routed)
    {query : HashMap Str} (read : ∀ name, declared spec .query name = true →
      query.lookup name = args.text world.crates name) :
    resolve world.crates spec (mapOf asked.request.pathParams) query =
      resolve world.crates spec (splitArgs world.crates spec args.map).1
        (splitArgs world.crates spec args.map).2 := by
  refine resolve_congr world.crates fun p member => ?_
  rw [rawValue_call world.crates args member]
  cases place : p.kind with
  | path =>
    rw [rawValue, place]
    dsimp only
    rw [asked.path]
    cases given : args.text world.crates p.name with
    | none => rw [ite_self]
    | some text => rw [if_pos (routed.1 p member place (by rw [given]; rfl))]
  | query =>
    have found := read p.name (declared_iff.mpr ⟨p, member, rfl, place⟩)
    rw [rawValue, place]
    dsimp only
    rw [found]

/-- One that resolves has the places. -/
theorem Asked.placed_of_resolved (asked : AskedIn world spec args) {query : HashMap Str}
    {bound : Bound}
    (resolved : resolve world.crates spec (mapOf asked.request.pathParams) query = .ok bound) :
    ∀ p ∈ spec.params, p.kind = .path → (args.text world.crates p.name).isSome = true →
      p.name ∈ asked.captured := by
  intro p member place given
  obtain ⟨found, each⟩ := resolve_outcome resolved p member
  by_contra elsewhere
  have missing : rawValue (mapOf asked.request.pathParams) query p = none := by
    rw [rawValue, place]
    dsimp only
    rw [asked.path, if_neg elsewhere]
  rw [outcome, missing] at each
  simp [ParamSpec.effectivelyRequired, place] at each

/-! ## What a request is answered -/

/-- A response answers with a body, or with an error. -/
def Answers : ApiResult Bytes → Response → Prop
  | .ok body, response => response.status = 200 ∧ response.body = body
  | .error _, response => response.status ≠ 200

/-- An error is answered with its own status and body. -/
theorem answers_error (crates : Crates) (rid : Str) (error : ApiError) :
    Answers (.error error) (error.intoResponse crates rid) := by
  have high := error.status_not_success
  intro ok
  have status : (error.intoResponse crates rid).status = error.status := rfl
  omega

/-- With nothing cached, an unconditional request is answered with what is computed. -/
theorem runSpec_cold (world : World) (gen : Nat) (cutOff : Bool) (rid : Str)
    {spec : EndpointSpec} {request : Request} (fresh : request.ifNoneMatch = none)
    {resolved : ApiResult Bound} (resolution : resolveRequest world spec request = some resolved) :
    ∃ response, runSpec world Tiers.cold gen cutOff rid spec request = some response ∧
      Answers (resolved.bind (compute world cutOff spec request)) response := by
  rw [runSpec, resolution, Option.map_some]
  cases resolved with
  | error error => exact ⟨_, rfl, answers_error world.crates rid error⟩
  | ok bound =>
    have body : (if spec.cache then
          (getOrCompute world.crates Tiers.cold (requestKey world gen spec request bound)
            (spec.ttlDuration world.crates) (compute world cutOff spec request bound)).1
        else (compute world cutOff spec request bound).map
          (fun bytes => Cache.CachedBody.new world.crates bytes (spec.ttlDuration world.crates))) =
        (compute world cutOff spec request bound).map
          (fun bytes => Cache.CachedBody.new world.crates bytes
            (spec.ttlDuration world.crates)) := by
      rw [getOrCompute_body]
      exact ite_self _
    simp only [body]
    cases computed : compute world cutOff spec request bound with
    | error error =>
      refine ⟨_, rfl, ?_⟩
      rw [Except.bind, computed]
      exact answers_error world.crates rid error
    | ok bytes =>
      refine ⟨_, rfl, ?_⟩
      rw [Except.bind, computed, fresh]
      exact ⟨rfl, rfl⟩

/-- What a request of a shared endpoint comes to. -/
theorem Asked.answered (asked : AskedIn world spec args) (shared : spec.selfTenant = false)
    (gen : Nat) (cutOff : Bool) (rid : Str) : ∃ outcome response,
      asked.answer gen cutOff rid = some response ∧ Answers outcome response ∧
      (asked.Routed → outcome = (resolve world.crates spec
        (splitArgs world.crates spec args.map).1 (splitArgs world.crates spec args.map).2).bind
          (compute world cutOff spec asked.request)) ∧
      (¬asked.Routed → ∃ error, outcome = .error error) := by
  rw [Asked.answer]
  by_cases found : asked.found = true
  · rw [if_pos found]
    obtain ⟨query, parsed, read⟩ := asked.parsed
    have resolution : resolveRequest world spec asked.request =
        some (resolve world.crates spec (mapOf asked.request.pathParams) query) := by
      rw [resolveRequest, ownQuery, parsed, Option.map_some, Option.map_some, scopedQuery, shared]
      rfl
    obtain ⟨response, answered, answers⟩ :=
      runSpec_cold world gen cutOff rid asked.unconditional resolution
    refine ⟨_, response, answered, answers, fun routed => ?_, fun elsewhere => ?_⟩
    · rw [resolve_request asked routed read]
    · cases resolved : resolve world.crates spec (mapOf asked.request.pathParams) query with
      | error error => exact ⟨error, rfl⟩
      | ok bound => exact absurd ⟨asked.placed_of_resolved resolved, found⟩ elsewhere
  · rw [if_neg found]
    have refused : Answers (.error (.notFound [])) unrouted := Nat.ne_of_beq_eq_false rfl
    refine ⟨_, unrouted, rfl, refused, fun routed => ?_, fun _ => ⟨_, rfl⟩⟩
    exact absurd routed.2 found

/-! ## What a call is answered -/

/-- The body that a call reads back. -/
def Served.body (served : Served) (world : World) (cutOff : Bool) (args : Arguments) :
    ApiResult Bytes :=
  (served.resolved world args).bind fun bound =>
    produce world cutOff served.spec bound (served.echo world args) []

/-- Two bodies read as the same JSON text. -/
def ReadAlike (crates : Crates) (asked body : Bytes) : Prop :=
  ∃ value value', crates.fromSlice asked = some value ∧ crates.fromSlice body = some value' ∧
    toText crates value = toText crates value'

/-- Two answers read as the same text, or both are errors. -/
def Same (crates : Crates) : ApiResult Bytes → ApiResult Bytes → Prop
  | .ok asked, .ok body => ReadAlike crates asked body
  | .error _, .ok body => crates.fromSlice body = none
  | .ok _, .error _ => False
  | .error _, .error _ => True

/-- The tool that is found is the endpoint's own if no earlier one has an id that reads the same. -/
theorem find_iff {specs : List EndpointSpec} {spec : EndpointSpec} :
    (registryFromSpecs specs).find (toolName spec) = some (toolFromSpec spec) ↔
      ∃ before after, specs = before ++ spec :: after ∧
        ∀ other ∈ before, toolName other ≠ toolName spec := by
  rw [McpRegistry.find, registryFromSpecs, List.find?_eq_some_iff_append]
  constructor
  · rintro ⟨-, before, after, whole, others⟩
    obtain ⟨first, rest, rfl, rfl, later⟩ := List.map_eq_append_iff.mp whole
    obtain ⟨found, last, rfl, same, rfl⟩ := List.map_eq_cons_iff.mp later
    obtain rfl : found = spec := congrArg McpTool.spec same
    refine ⟨first, last, rfl, fun other earlier => ?_⟩
    have apart := others (toolFromSpec other) (List.mem_map_of_mem earlier)
    exact fun same => by simp [toolFromSpec, same] at apart
  · rintro ⟨before, after, rfl, others⟩
    refine ⟨decide_eq_true rfl, before.map toolFromSpec, after.map toolFromSpec, ?_, ?_⟩
    · rw [List.map_append, List.map_cons]
    · intro tool earlier
      obtain ⟨other, inside, rfl⟩ := List.mem_map.mp earlier
      have apart : decide (toolName other = toolName spec) = false :=
        decide_eq_false (others other inside)
      rw [toolFromSpec, apart]
      rfl

/-- Two results are the same if they print the same. -/
theorem toolResult_inj {crates : Crates} {value value' : Json} :
    toolResult crates value = toolResult crates value' ↔
      toText crates value = toText crates value' := by
  simp [toolResult, toolContent]

/-- A result is no error. -/
theorem toolResult_ne_toolError {crates : Crates} {value : Json} {text : Str} :
    toolResult crates value ≠ toolError text := by
  simp [toolResult, toolError, toolContent]

/-- What running the tool's query gives is the body that the endpoint serves, read as a value. -/
theorem Served.executed (served : Served) (world : World) (cutOff : Bool) (args : Arguments) :
    executeToValue world cutOff served.spec
        (splitArgs world.crates served.spec args.map).1
        (splitArgs world.crates served.spec args.map).2 =
      (served.body world cutOff args).bind fun body =>
        match world.crates.fromSlice body with
        | some value => .ok value
        | none => .error (.internal "response".str) := by
  rw [executeToValue, served.shared, Served.body, Served.resolved]
  cases resolve world.crates served.spec (splitArgs world.crates served.spec args.map).1
    (splitArgs world.crates served.spec args.map).2 <;> rfl

/-- What a call answers, with the tool looked up first. -/
theorem Served.called_eq (served : Served) (world : World) (cutOff : Bool) (args : Arguments) :
    served.called world cutOff args =
      match callTool world cutOff (registryFromSpecs served.specs) (toolName served.spec)
        args.map with
      | none => toolError ("unknown tool ".str ++ world.crates.unicode.debug (toolName served.spec))
      | some (.ok value) => toolResult world.crates value
      | some (.error error) => toolError error.toText := rfl

/-- A call that selects the tool of its endpoint is answered with its body, read back. -/
theorem Served.called_own (served : Served) (world : World) (cutOff : Bool) (args : Arguments)
    (own : (registryFromSpecs served.specs).find (toolName served.spec) =
      some (toolFromSpec served.spec)) :
    (∀ body value, served.body world cutOff args = .ok body →
      world.crates.fromSlice body = some value →
        served.called world cutOff args = toolResult world.crates value) ∧
    ((∀ body, served.body world cutOff args = .ok body → world.crates.fromSlice body = none) →
      ∃ text, served.called world cutOff args = toolError text) := by
  have named : callTool world cutOff (registryFromSpecs served.specs) (toolName served.spec)
      args.map = some (executeToValue world cutOff served.spec
        (splitArgs world.crates served.spec args.map).1
        (splitArgs world.crates served.spec args.map).2) := by
    rw [callTool, own]
    rfl
  have shown := served.called_eq world cutOff args
  rw [named, served.executed] at shown
  constructor
  · intro body value found read
    rw [shown, found, Except.bind]
    simp only [read]
  · intro unread
    cases found : served.body world cutOff args with
    | error error =>
      rw [found] at shown
      exact ⟨_, shown⟩
    | ok body =>
      rw [found, Except.bind] at shown
      simp only [unread body found] at shown
      exact ⟨_, shown⟩

/-! ## Comparing the answers -/

/-- A GET that fails agrees with a call exactly if the call fails too: its body is an error, or cannot
be read back. -/
theorem same_error_iff (served : Served) (cutOff : Bool) {asked : AskedIn world served.spec args}
    (own : (registryFromSpecs served.specs).find (toolName served.spec) =
      some (toolFromSpec served.spec))
    {gen : Nat} {rid : Str} {error : ApiError} {response : Response}
    (answered : asked.answer gen cutOff rid = some response)
    (answers : Answers (.error error) response) :
    Agree world gen cutOff rid served args asked ↔
      Same world.crates (.error error) (served.body world cutOff args) := by
  obtain ⟨read, unread⟩ := served.called_own world cutOff args own
  have failing : ∀ other, asked.answer gen cutOff rid = some other → other.status ≠ 200 := by
    intro other same
    obtain rfl := Option.some.inj (answered.symm.trans same)
    exact answers
  cases body : served.body world cutOff args with
  | error refused =>
    refine iff_of_true ⟨own, fun other same ok => absurd ok (failing other same), fun _ => ?_⟩
      trivial
    exact unread fun bytes found => by
      rw [body] at found
      cases found
  | ok bytes =>
    constructor
    · intro agrees
      obtain ⟨text, refused⟩ := agrees.failed failing
      cases found : world.crates.fromSlice bytes with
      | none => exact found
      | some value =>
        rw [read bytes value body found] at refused
        exact absurd refused toolResult_ne_toolError
    · intro none
      refine ⟨own, fun other same ok => absurd ok (failing other same), fun _ => unread ?_⟩
      intro other same
      obtain rfl := Except.ok.inj (body.symm.trans same)
      exact none

/-- A GET that succeeds agrees with a call exactly if the call reads the same value from a body of its
own. -/
theorem same_ok_iff (served : Served) (cutOff : Bool) {asked : AskedIn world served.spec args}
    (own : (registryFromSpecs served.specs).find (toolName served.spec) =
      some (toolFromSpec served.spec))
    {gen : Nat} {rid : Str} {sent : Bytes} {response : Response}
    (answered : asked.answer gen cutOff rid = some response)
    (answers : Answers (.ok sent) response) :
    Agree world gen cutOff rid served args asked ↔
      Same world.crates (.ok sent) (served.body world cutOff args) := by
  obtain ⟨read, unread⟩ := served.called_own world cutOff args own
  obtain ⟨success, bytes⟩ := answers
  cases body : served.body world cutOff args with
  | error refused =>
    refine iff_of_false (fun agrees => ?_) id
    obtain ⟨value, -, result⟩ := agrees.returned response answered success
    obtain ⟨text, failed⟩ := unread fun other found => by
      rw [body] at found
      cases found
    rw [failed] at result
    exact toolResult_ne_toolError result.symm
  | ok local_ =>
    constructor
    · intro agrees
      obtain ⟨value, shown, result⟩ := agrees.returned response answered success
      rw [bytes] at shown
      cases found : world.crates.fromSlice local_ with
      | none =>
        obtain ⟨text, failed⟩ := unread fun other same => by
          obtain rfl := Except.ok.inj (body.symm.trans same)
          exact found
        rw [failed] at result
        exact absurd result.symm toolResult_ne_toolError
      | some value' =>
        rw [read local_ value' body found] at result
        exact ⟨value, value', shown, found, (toolResult_inj.mp result).symm⟩
    · rintro ⟨value, value', shown, found, same⟩
      refine ⟨own, fun other also ok => ?_, fun failing => absurd success (failing _ answered)⟩
      obtain rfl := Option.some.inj (answered.symm.trans also)
      refine ⟨value, by rw [bytes, shown], ?_⟩
      rw [read local_ value' body found]
      exact toolResult_inj.mpr same.symm

/-- Where the tool is its own, a call agrees with a request that comes to an outcome exactly
where the outcome and the body read the same. -/
theorem same_iff (served : Served) (cutOff : Bool) {asked : AskedIn world served.spec args}
    (own : (registryFromSpecs served.specs).find (toolName served.spec) =
      some (toolFromSpec served.spec))
    {gen : Nat} {rid : Str} {outcome : ApiResult Bytes} {response : Response}
    (answered : asked.answer gen cutOff rid = some response) (answers : Answers outcome response) :
    Agree world gen cutOff rid served args asked ↔
      Same world.crates outcome (served.body world cutOff args) := by
  cases outcome with
  | error error => exact same_error_iff served cutOff own answered answers
  | ok sent => exact same_ok_iff served cutOff own answered answers

/-! ## The bodies of some rows -/

/-- The members of an envelope that repeat a path parameter. -/
def echoMembers : Option (Str × Str) → JsonMap
  | some (name, v) => [(name, .string v)]
  | none => []

/-- The value in which rows are answered. -/
def bodyValue (spec : EndpointSpec) (echo : Option (Str × Str)) (rows : List JsonMap) : Json :=
  let kept := if spec.stripLineage then stripLineageRows rows else rows
  match spec.shape with
  | .rows => rowsValue kept
  | .one => (kept.head?.map Json.object).getD .null
  | .envelope =>
    .object (JsonMap.insert (spec.envelopeKey.getD "data".str) (rowsValue kept)
      (JsonMap.insert "count".str (Json.ofNat kept.length) (echoMembers echo)))

/-- Rows are answered in their value, or there is none of them where one is asked for. -/
theorem renderRows_eq (crates : Crates) (spec : EndpointSpec) (echo : Option (Str × Str))
    (rows : List JsonMap) : renderRows crates spec echo rows =
      if spec.shape = .one ∧ rows = [] then .error (.notFound "not found".str)
      else .ok (crates.toVec (bodyValue spec echo rows)) := by
  rw [renderRows]
  unfold bodyValue
  cases shaped : spec.shape with
  | rows => simp [shape, shaped, Except.map]
  | envelope =>
    cases echo with
    | none => simp [shape, shaped, Except.map, echoMembers]
    | some entry => simp [shape, shaped, Except.map, echoMembers, JsonMap.insert]
  | one =>
    cases rows with
    | nil => cases spec.stripLineage <;> simp [shape, shaped, stripLineageRows, Except.map]
    | cons row rest => cases spec.stripLineage <;> simp [shape, shaped, stripLineageRows, Except.map]

/-- A member that is set makes the map as deep as the deeper of the two. -/
theorem depthMembers_insert (name : Str) (value : Json) (map : JsonMap) :
    Json.depthMembers (JsonMap.insert name value map) ≤ max value.depth (Json.depthMembers map) ∧
      value.depth ≤ Json.depthMembers (JsonMap.insert name value map) := by
  induction map with
  | nil => simp [JsonMap.insert, Json.depthMembers]
  | cons entry rest inductionHypothesis =>
    obtain ⟨key, old⟩ := entry
    rw [JsonMap.insert]
    split_ifs
    · simp only [Json.depthMembers]
      omega
    · simp only [Json.depthMembers]
      omega

/-- The levels of a body are those of its rows. -/
theorem depth_bodyValue (spec : EndpointSpec) (echo : Option (Str × Str)) (rows : List JsonMap) :
    (bodyValue spec echo rows).depth = bodyDepth spec rows := by
  unfold bodyValue bodyDepth
  cases shaped : spec.shape with
  | rows => rfl
  | one =>
    dsimp only
    cases (if spec.stripLineage then stripLineageRows rows else rows).head? with
    | none => rfl
    | some row => rfl
  | envelope =>
    dsimp only
    generalize (if spec.stripLineage then stripLineageRows rows else rows) = kept
    rw [Json.depth]
    have echoed : Json.depthMembers (echoMembers echo) = 0 := by
      cases echo with
      | none => rfl
      | some entry => rfl
    have count := (depthMembers_insert "count".str (Json.ofNat kept.length) (echoMembers echo)).1
    rw [echoed] at count
    have inserted := depthMembers_insert (spec.envelopeKey.getD "data".str) (rowsValue kept)
      (JsonMap.insert "count".str (Json.ofNat kept.length) (echoMembers echo))
    rw [Nat.le_zero.mp count, Nat.max_zero] at inserted
    rw [Nat.le_antisymm inserted.1 inserted.2]

/-- The key of the first member of an envelope. -/
def firstKey : Option (Str × Str) → Str
  | some (name, _) => name
  | none => "count".str

/-- An envelope begins with its echo, or with its count. -/
theorem bodyValue_envelope {spec : EndpointSpec} (shaped : spec.shape = .envelope)
    {echo : Option (Str × Str)} (notCount : ∀ entry ∈ echo, entry.1 ≠ "count".str)
    (rows : List JsonMap) : ∃ value rest,
      bodyValue spec echo rows = .object ((firstKey echo, value) :: rest) := by
  unfold bodyValue
  rw [shaped]
  dsimp only
  generalize (if spec.stripLineage then stripLineageRows rows else rows) = kept
  cases echo with
  | none =>
    rw [echoMembers, JsonMap.insert, JsonMap.insert]
    split_ifs with same
    · exact ⟨_, _, rfl⟩
    · exact ⟨_, _, rfl⟩
  | some entry =>
    have other := notCount entry rfl
    rw [echoMembers, JsonMap.insert, JsonMap.insert, if_neg other, JsonMap.insert]
    split_ifs with same
    · exact ⟨_, _, rfl⟩
    · exact ⟨_, _, rfl⟩

/-- The keys with which an envelope can begin. -/
def openingKeys : List Str := ["key".str, "symbol".str, "count".str]

/-- The text of an object begins with its first key. -/
theorem toVec_opening {crates : Crates} (serde : Serde crates) {key : Str}
    (known : key ∈ openingKeys) (value : Json) (rest : List (Str × Json)) :
    ∃ tail, crates.toVec (.object ((key, value) :: rest)) =
      Text.utf8 ('\x7b' :: '"' :: key ++ ['"']) ++ tail := by
  have letters : ∀ c ∈ key, Text.isAsciiLower c = true := by
    simp only [openingKeys, List.mem_cons, List.not_mem_nil, or_false] at known
    rcases known with rfl | rfl | rfl
    · exact List.all_eq_true.mp (by decide)
    · exact List.all_eq_true.mp (by decide)
    · exact List.all_eq_true.mp (by decide)
  have first : ∃ more, (Text.utf8 [',']).intercalate (((key, value) :: rest).map
      (fun entry => crates.toVec (.string entry.1) ++ Text.utf8 [':'] ++ crates.toVec entry.2)) =
        crates.toVec (.string key) ++ more := by
    cases rest with
    | nil =>
      refine ⟨Text.utf8 [':'] ++ crates.toVec value, ?_⟩
      rw [List.map_singleton, List.intercalate_singleton, List.append_assoc]
    | cons next others =>
      refine ⟨Text.utf8 [':'] ++ crates.toVec value ++ Text.utf8 [','] ++
        (Text.utf8 [',']).intercalate ((next :: others).map (fun entry =>
          crates.toVec (.string entry.1) ++ Text.utf8 [':'] ++ crates.toVec entry.2)), ?_⟩
      rw [List.map_cons, List.map_cons, List.intercalate_cons_cons]
      simp only [List.append_assoc]
  obtain ⟨more, first⟩ := first
  refine ⟨more ++ Text.utf8 ['\x7d'], ?_⟩
  rw [crates.toVec_object, first, serde.word key letters, ← List.singleton_append,
    Text.utf8_append]
  simp only [List.append_assoc]
  rfl

/-- The third byte tells the three keys apart. -/
theorem openingKeys_inj {key key' : Str} (known : key ∈ openingKeys) (known' : key' ∈ openingKeys)
    {tail tail' : Bytes} (same : Text.utf8 ('\x7b' :: '"' :: key ++ ['"']) ++ tail =
      Text.utf8 ('\x7b' :: '"' :: key' ++ ['"']) ++ tail') : key = key' := by
  have third := congrArg (fun bytes : Bytes => bytes[2]?) same
  have letter (tail : Bytes) :
      (Text.utf8 ('\x7b' :: '"' :: "key".str ++ ['"']) ++ tail)[2]? = some 107 ∧
      (Text.utf8 ('\x7b' :: '"' :: "symbol".str ++ ['"']) ++ tail)[2]? = some 115 ∧
      (Text.utf8 ('\x7b' :: '"' :: "count".str ++ ['"']) ++ tail)[2]? = some 99 :=
    ⟨rfl, rfl, rfl⟩
  obtain ⟨k, s, c⟩ := letter tail
  obtain ⟨k', s', c'⟩ := letter tail'
  simp only [openingKeys, List.mem_cons, List.not_mem_nil, or_false] at known known'
  rcases known with rfl | rfl | rfl <;> rcases known' with rfl | rfl | rfl <;>
    simp only [k, s, c, k', s', c'] at third ⊢ <;> exact absurd third (by decide)

/-- The texts of values are equal where the values are written alike. -/
theorem toText_inj {crates : Crates} (serde : Serde crates) {value value' : Json} :
    toText crates value = toText crates value' ↔ crates.toVec value = crates.toVec value' := by
  obtain ⟨s, written⟩ := serde.text value
  obtain ⟨t, written'⟩ := serde.text value'
  have decoded (text : Str) : Text.fromUtf8 (Text.utf8 text) = some text := by
    rw [Text.fromUtf8, Text.fromUtf8Lossy_utf8_self, if_pos rfl]
  rw [toText, toText, written, written', decoded, decoded]
  exact ⟨fun same => congrArg Text.utf8 same, fun same => Text.utf8_injective same⟩

/-- Two bodies of the same depth read alike exactly where they are the same and can be read. -/
theorem readAlike_iff {crates : Crates} (serde : Serde crates) {value value' : Json}
    (level : value.depth = value'.depth) :
    ReadAlike crates (crates.toVec value) (crates.toVec value') ↔
      value.depth < recursionLimit ∧ crates.toVec value = crates.toVec value' := by
  constructor
  · rintro ⟨read, read', found, found', same⟩
    have shallow : value.depth < recursionLimit := by
      by_contra deep
      rw [serde.refuses value (Nat.le_of_not_lt deep)] at found
      cases found
    obtain ⟨again, reads, written⟩ := serde.reads value shallow
    obtain ⟨again', reads', written'⟩ := serde.reads value' (level ▸ shallow)
    obtain rfl := Option.some.inj (reads.symm.trans found)
    obtain rfl := Option.some.inj (reads'.symm.trans found')
    exact ⟨shallow, written.symm.trans (((toText_inj serde).mp same).trans written')⟩
  · rintro ⟨shallow, same⟩
    obtain ⟨again, reads, -⟩ := serde.reads value shallow
    exact ⟨again, again, reads, same ▸ reads, rfl⟩

/-- The parameter that an envelope repeats is one of two, with its argument for a value. -/
theorem idEcho_known {crates : Crates} {path : HashMap Str}
    (texts : ∀ name v, path.lookup name = some v → args.text crates name = some v) :
    ∀ entry ∈ idEcho path, (entry.1 = "key".str ∨ entry.1 = "symbol".str) ∧
      args.text crates entry.1 = some entry.2 := by
  rintro ⟨name, v⟩ member
  rw [idEcho] at member
  cases key : path.lookup "key".str with
  | some text =>
    rw [key] at member
    obtain ⟨rfl, rfl⟩ := Prod.mk.inj (Option.some.inj member)
    exact ⟨Or.inl rfl, texts _ _ key⟩
  | none =>
    rw [key] at member
    obtain ⟨text, symbol, same⟩ := Option.map_eq_some_iff.mp member
    obtain ⟨rfl, rfl⟩ := Prod.mk.inj same
    exact ⟨Or.inr rfl, texts _ _ symbol⟩

/-- The echo of a request is the argument of the captured parameter. -/
theorem Asked.echo_known {crates : Crates} {role : Str} (asked : Asked crates role spec args) :
    ∀ entry ∈ asked.echo, (entry.1 = "key".str ∨ entry.1 = "symbol".str) ∧
      args.text crates entry.1 = some entry.2 := by
  refine idEcho_known fun name v found => ?_
  rw [asked.path] at found
  split_ifs at found
  exact found

/-- The echo of a call is the argument of the parameter of that name. -/
theorem Served.echo_known (served : Served) :
    ∀ entry ∈ served.echo world args, (entry.1 = "key".str ∨ entry.1 = "symbol".str) ∧
      args.text world.crates entry.1 = some entry.2 := by
  refine idEcho_known fun name v found => ?_
  have looked := lookup_splitArgs world.crates served.spec args .path name
  rw [placed] at looked
  rw [looked] at found
  split_ifs at found
  exact found

/-- Two envelopes of the same rows are written alike only where they repeat the same. -/
theorem echo_of_toVec {crates : Crates} (serde : Serde crates) {echo echo' : Option (Str × Str)}
    (shaped : spec.shape = .envelope)
    (known : ∀ entry ∈ echo, (entry.1 = "key".str ∨ entry.1 = "symbol".str) ∧
      args.text crates entry.1 = some entry.2)
    (known' : ∀ entry ∈ echo', (entry.1 = "key".str ∨ entry.1 = "symbol".str) ∧
      args.text crates entry.1 = some entry.2) {rows : List JsonMap}
    (same : crates.toVec (bodyValue spec echo rows) = crates.toVec (bodyValue spec echo' rows)) :
    echo = echo' := by
  have notCount {e : Option (Str × Str)} (known : ∀ entry ∈ e, (entry.1 = "key".str ∨
      entry.1 = "symbol".str) ∧ args.text crates entry.1 = some entry.2) :
      ∀ entry ∈ e, entry.1 ≠ "count".str := by
    intro entry member count
    obtain ⟨key | symbol, -⟩ := known entry member
    · exact absurd (key.symm.trans count) (by decide)
    · exact absurd (symbol.symm.trans count) (by decide)
  have opening {e : Option (Str × Str)} (known : ∀ entry ∈ e, (entry.1 = "key".str ∨
      entry.1 = "symbol".str) ∧ args.text crates entry.1 = some entry.2) :
      firstKey e ∈ openingKeys := by
    cases e with
    | none => exact List.mem_cons_of_mem _ (List.mem_cons_of_mem _ List.mem_cons_self)
    | some entry =>
      obtain ⟨key | symbol, -⟩ := known entry rfl
      · exact List.mem_cons.mpr (Or.inl key)
      · exact List.mem_cons_of_mem _ (List.mem_cons.mpr (Or.inl symbol))
  obtain ⟨value, rest, written⟩ := bodyValue_envelope shaped (notCount known) rows
  obtain ⟨value', rest', written'⟩ := bodyValue_envelope shaped (notCount known') rows
  obtain ⟨tail, begins⟩ := toVec_opening serde (opening known) value rest
  obtain ⟨tail', begins'⟩ := toVec_opening serde (opening known') value' rest'
  rw [written, written', begins, begins'] at same
  have first := openingKeys_inj (opening known) (opening known') same
  cases echo with
  | none =>
    cases echo' with
    | none => rfl
    | some entry => exact absurd first.symm (notCount known' entry rfl)
  | some entry =>
    cases echo' with
    | none => exact absurd first (notCount known entry rfl)
    | some entry' =>
      obtain ⟨name, v⟩ := entry
      obtain ⟨name', v'⟩ := entry'
      obtain rfl : name = name' := first
      obtain rfl : v = v' := Option.some.inj ((known _ rfl).2.symm.trans (known' _ rfl).2)
      rfl

/-- Rows that are rendered twice read the same where they can be read and an envelope repeats the
same parameter, or where there is none of them to render. -/
theorem same_renderRows {crates : Crates} (serde : Serde crates) {echo echo' : Option (Str × Str)}
    (known : ∀ entry ∈ echo, (entry.1 = "key".str ∨ entry.1 = "symbol".str) ∧
      args.text crates entry.1 = some entry.2)
    (known' : ∀ entry ∈ echo', (entry.1 = "key".str ∨ entry.1 = "symbol".str) ∧
      args.text crates entry.1 = some entry.2) {rows : List JsonMap} :
    Same crates (renderRows crates spec echo rows) (renderRows crates spec echo' rows) ↔
      ((spec.shape = .one → rows ≠ []) →
        bodyDepth spec rows < recursionLimit ∧ (spec.shape = .envelope → echo = echo')) := by
  rw [renderRows_eq, renderRows_eq]
  by_cases nothing : spec.shape = .one ∧ rows = []
  · rw [if_pos nothing, if_pos nothing]
    exact iff_of_true trivial fun some => absurd nothing.2 (some nothing.1)
  · rw [if_neg nothing, if_neg nothing]
    have level : (bodyValue spec echo rows).depth = (bodyValue spec echo' rows).depth := by
      rw [depth_bodyValue, depth_bodyValue]
    refine (readAlike_iff serde level).trans ?_
    rw [depth_bodyValue]
    constructor
    · rintro ⟨shallow, same⟩ -
      exact ⟨shallow, fun shaped => echo_of_toVec serde shaped known known' same⟩
    · intro held
      obtain ⟨shallow, repeated⟩ := held fun one none => nothing ⟨one, none⟩
      refine ⟨shallow, ?_⟩
      by_cases shaped : spec.shape = .envelope
      · rw [repeated shaped]
      · unfold bodyValue
        cases other : spec.shape with
        | rows => rfl
        | one => rfl
        | envelope => exact absurd other shaped

/-! ## Deciding the agreement -/

/-- The body of a call is what its rows are rendered to. -/
theorem Served.body_eq (served : Served) (world : World) (cutOff : Bool) (args : Arguments) :
    served.body world cutOff args = (served.fetched world cutOff args).bind
      (renderRows world.crates served.spec (served.echo world args)) := by
  rw [Served.body, Served.fetched]
  cases served.resolved world args with
  | error error => rfl
  | ok bound => rfl

/-- A body cannot be read back exactly where there are too many levels in its rows. -/
theorem unreadable_iff (serde : Serde world.crates) (served : Served) (cutOff : Bool) :
    Same world.crates (.error (.notFound [])) (served.body world cutOff args) ↔
      ∀ rows, served.Answered world cutOff args rows →
        recursionLimit ≤ bodyDepth served.spec rows := by
  rw [Served.body_eq]
  cases fetched : served.fetched world cutOff args with
  | error error =>
    refine iff_of_true trivial fun rows answered => ?_
    cases fetched.symm.trans answered.1
  | ok rows =>
    have only (other : List JsonMap) (answered : served.Answered world cutOff args other) :
        rows = other := Except.ok.inj (fetched.symm.trans answered.1)
    rw [Except.bind, renderRows_eq]
    by_cases nothing : served.spec.shape = .one ∧ rows = []
    · rw [if_pos nothing]
      refine iff_of_true trivial fun other answered => ?_
      obtain rfl := only other answered
      exact absurd nothing.2 (answered.2 nothing.1)
    · rw [if_neg nothing]
      have unread : Same world.crates (.error (.notFound []))
          (.ok (world.crates.toVec (bodyValue served.spec (served.echo world args) rows))) ↔
            recursionLimit ≤ bodyDepth served.spec rows := by
        rw [← depth_bodyValue served.spec (served.echo world args) rows]
        constructor
        · intro none
          by_contra shallow
          obtain ⟨again, reads, -⟩ := serde.reads _ (Nat.lt_of_not_le shallow)
          cases reads.symm.trans none
        · exact fun deep => serde.refuses _ deep
      refine unread.trans ⟨fun deep other answered => ?_, fun deep => ?_⟩
      · obtain rfl := only other answered
        exact deep
      · exact deep rows ⟨fetched, fun one none => nothing ⟨one, none⟩⟩

/-- A request that has its route agrees with the call where what it computes reads like the body
of the call. -/
theorem agree_routed (served : Served) (gen : Nat) (cutOff : Bool) (rid : Str)
    {asked : AskedIn world served.spec args} (routed : asked.Routed) :
    Agree world gen cutOff rid served args asked ↔
      (registryFromSpecs served.specs).find (toolName served.spec) =
          some (toolFromSpec served.spec) ∧
        Same world.crates ((served.resolved world args).bind
          (compute world cutOff served.spec asked.request)) (served.body world cutOff args) := by
  obtain ⟨outcome, response, answered, answers, placed, -⟩ :=
    asked.answered served.shared gen cutOff rid
  have computed : outcome = (served.resolved world args).bind
    (compute world cutOff served.spec asked.request) := placed routed
  rw [← computed]
  exact ⟨fun agree => ⟨agree.own, (same_iff served cutOff agree.own answered answers).mp agree⟩,
    fun held => (same_iff served cutOff held.1 answered answers).mpr held.2⟩

/-- One that has none agrees with the call where the call fails. -/
theorem agree_unrouted (served : Served) (gen : Nat) (cutOff : Bool) (rid : Str)
    {asked : AskedIn world served.spec args} (elsewhere : ¬asked.Routed) :
    Agree world gen cutOff rid served args asked ↔
      (registryFromSpecs served.specs).find (toolName served.spec) =
          some (toolFromSpec served.spec) ∧
        Same world.crates (.error (.notFound [])) (served.body world cutOff args) := by
  obtain ⟨outcome, response, answered, answers, -, unplaced⟩ :=
    asked.answered served.shared gen cutOff rid
  obtain ⟨error, rfl⟩ := unplaced elsewhere
  have refused : Same world.crates (.error error) (served.body world cutOff args) ↔
      Same world.crates (.error (.notFound [])) (served.body world cutOff args) := by
    cases served.body world cutOff args with
    | error _ => exact Iff.rfl
    | ok _ => exact Iff.rfl
  rw [← refused]
  exact ⟨fun agree => ⟨agree.own, (same_iff served cutOff agree.own answered answers).mp agree⟩,
    fun held => (same_iff served cutOff held.1 answered answers).mpr held.2⟩

/-- Where reads are not forwarded, a request computes what is fetched for the call. -/
theorem compute_here (served : Served) (cutOff : Bool) (asked : AskedIn world served.spec args)
    (here : fedPeer world = none) :
    (served.resolved world args).bind (compute world cutOff served.spec asked.request) =
      (served.fetched world cutOff args).bind
        (renderRows world.crates served.spec asked.echo) := by
  rw [Served.fetched]
  cases served.resolved world args with
  | error error => rfl
  | ok bound =>
    have role : effectiveReadRole world served.spec asked.request = [] := by
      rw [effectiveReadRole, asked.plain]
      rfl
    rw [Except.bind, compute, here, role]
    rfl

/-- Where nothing that is accepted is forwarded, what is computed for the GET is read as the value of
the call's body exactly if the rows nest few enough levels and an envelope repeats the same
parameter. -/
theorem same_local_iff (serde : Serde world.crates) (served : Served) (cutOff : Bool)
    (asked : AskedIn world served.spec args)
    (here : ∀ bound, served.resolved world args = .ok bound → fedPeer world = none) :
    Same world.crates ((served.resolved world args).bind
      (compute world cutOff served.spec asked.request)) (served.body world cutOff args) ↔
      ∀ rows, served.Answered world cutOff args rows →
        bodyDepth served.spec rows < recursionLimit ∧
          (served.spec.shape = .envelope → asked.echo = served.echo world args) := by
  rw [Served.body_eq]
  cases fetched : served.fetched world cutOff args with
  | error error =>
    have failing : Same world.crates ((served.resolved world args).bind
        (compute world cutOff served.spec asked.request)) (.error error) := by
      cases resolved : served.resolved world args with
      | error refused => trivial
      | ok bound =>
        have computed := compute_here served cutOff asked (here bound resolved)
        rw [resolved, fetched] at computed
        rw [computed]
        trivial
    refine iff_of_true failing fun rows answered => ?_
    cases fetched.symm.trans answered.1
  | ok rows =>
    obtain ⟨bound, resolved⟩ : ∃ bound, served.resolved world args = .ok bound := by
      cases resolved : served.resolved world args with
      | error error =>
        rw [Served.fetched, resolved] at fetched
        cases fetched
      | ok bound => exact ⟨bound, rfl⟩
    rw [compute_here served cutOff asked (here bound resolved), fetched]
    refine (same_renderRows serde asked.echo_known served.echo_known).trans ?_
    constructor
    · intro held other answered
      obtain rfl := Except.ok.inj (fetched.symm.trans answered.1)
      exact held answered.2
    · exact fun held some => held rows ⟨fetched, some⟩

/-- Where nothing that is accepted is forwarded, a request and a call agree under the condition. -/
theorem agree_iff_aligned (serde : Serde world.crates) (served : Served) (gen : Nat)
    (cutOff : Bool) (rid : Str) (asked : AskedIn world served.spec args)
    (here : ∀ bound, served.resolved world args = .ok bound → asked.Routed →
      fedPeer world = none) :
    Agree world gen cutOff rid served args asked ↔ Aligned world cutOff served args asked := by
  by_cases routed : asked.Routed
  · refine (agree_routed served gen cutOff rid routed).trans ?_
    rw [same_local_iff serde served cutOff asked (fun bound resolved => here bound resolved routed),
      find_iff]
    constructor
    · rintro ⟨first, held⟩
      exact ⟨first, here, fun _ _ _ => routed, fun rows answered _ => (held rows answered).1,
        fun rows answered _ => (held rows answered).2⟩
    · intro aligned
      exact ⟨aligned.first, fun rows answered => ⟨aligned.shallow rows answered routed,
        aligned.repeated rows answered routed⟩⟩
  · refine (agree_unrouted served gen cutOff rid routed).trans ?_
    rw [unreadable_iff serde, find_iff]
    constructor
    · rintro ⟨first, deep⟩
      refine ⟨first, here, fun rows answered shallow => ?_, fun _ _ way => absurd way routed,
        fun _ _ way => absurd way routed⟩
      exact absurd shallow (Nat.not_lt_of_le (deep rows answered))
    · intro aligned
      refine ⟨aligned.first, fun rows answered => ?_⟩
      by_contra shallow
      exact routed (aligned.routed rows answered (Nat.lt_of_not_le shallow))

/-- A peer that answers everything with a status and no body. -/
def answering (world : World) (status : Nat) : Data where
  backends := world.backends
  forward := fun _ _ _ _ => (status, [])
  forward_origin := fun _ _ _ _ _ => rfl

/-- What is forwarded can fail whatever is read here, and the other way around. -/
theorem here_of_agrees {gen : Nat} {cutOff : Bool} {rid : Str} {served : Served}
    {asked : AskedIn world served.spec args}
    (agrees : Agrees world gen cutOff rid served args asked) (bound : Bound)
    (accepted : served.resolved world args = .ok bound) (routed : asked.Routed) :
    fedPeer world = none := by
  cases forwards : fedPeer world with
  | none => rfl
  | some peer =>
    have relayed (status : Nat) : Same world.crates
        (produceFederated (withData world (answering world status)) peer asked.request.uriPath
          asked.request.rawQuery ((asked.request.identity.map (fun i => ⟨i.sub, i.role⟩)).getD {}))
        (served.body world cutOff args) := by
      let elsewhere := withData world (answering world status)
      have same := ((@agree_routed elsewhere args served gen cutOff rid asked routed).mp
        (agrees (answering world status) rfl)).2
      have accepted' : served.resolved elsewhere args = .ok bound := accepted
      have forwards' : fedPeer elsewhere = some peer := forwards
      rw [accepted', Except.bind, compute, forwards'] at same
      exact same
    have refused : ∃ error, produceFederated (withData world (answering world 502)) peer
        asked.request.uriPath asked.request.rawQuery
          ((asked.request.identity.map (fun i => ⟨i.sub, i.role⟩)).getD {}) = .error error :=
      ⟨_, rfl⟩
    have empty : produceFederated (withData world (answering world 200)) peer
        asked.request.uriPath asked.request.rawQuery
          ((asked.request.identity.map (fun i => ⟨i.sub, i.role⟩)).getD {}) = .ok [] := rfl
    obtain ⟨error, refused⟩ := refused
    have failed := relayed 502
    have given := relayed 200
    rw [refused] at failed
    rw [empty] at given
    cases body : served.body world cutOff args with
    | error other =>
      rw [body] at given
      exact given.elim
    | ok bytes =>
      rw [body] at failed given
      obtain ⟨value, value', -, found, -⟩ := given
      cases found.symm.trans failed

/-- The price of a symbol, in an envelope. -/
def quote : EndpointSpec where
  id := "quotes.last".str
  path := "/quotes/:symbol".str
  ttl := "60s".str
  sql := "SELECT price FROM core.quotes WHERE symbol = :symbol".str
  params := [{ name := "symbol".str, kind := .path, ty := "key".str }]
  shape := .envelope

/-- An instance that serves it. -/
def quotes : Served where
  specs := [quote]
  spec := quote
  member := List.mem_cons_self
  distinct := List.nodup_singleton _
  shared := rfl

/-- A database that answers one price. -/
noncomputable def priced : World :=
  { World.plain (fun _ _ => .ok [[("price".str, .number (.int 190))]]) with
    crates := Nesting.crates }

/-- The arguments that ask for one symbol. -/
def ofApple : Arguments := ⟨[("symbol".str, .string "AAPL".str)], List.nodup_singleton _⟩

/-- `GET /quotes/AAPL`. -/
noncomputable def appleQuote : AskedIn priced quotes.spec ofApple where
  captured := ["symbol".str]
  request := { pathParams := [("symbol".str, "AAPL".str)] }
  path name := by
    by_cases symbol : name = "symbol".str
    · subst symbol
      rfl
    · rw [if_neg (mt List.mem_singleton.mp symbol)]
      exact AList.lookup_insert_ne symbol
  query := ⟨[], List.Perm.refl _, Or.inl ⟨rfl, rfl⟩⟩
  plain := rfl
  unconditional := rfl

/-- An endpoint without parameters. -/
def sketch (id path : Str) : EndpointSpec :=
  { id := id, path := path, ttl := "60s".str, sql := "SELECT 1".str }

/-- Two ids that differ in a dot and an underscore; the second is asked for. -/
def twins : Served where
  specs := [sketch "prices.daily".str "/daily".str, sketch "prices_daily".str "/snapshot".str]
  spec := sketch "prices_daily".str "/snapshot".str
  member := List.mem_cons_of_mem _ List.mem_cons_self
  distinct := by decide
  shared := rfl

/-- A call without arguments. -/
def noArguments : Arguments := ⟨[], List.nodup_nil⟩

/-- A GET of the second endpoint. -/
def snapshot : AskedIn (World.plain fun _ _ => .ok []) twins.spec noArguments where
  captured := []
  request := {}
  path _ := rfl
  query := ⟨[], List.Perm.refl _, Or.inl ⟨rfl, rfl⟩⟩
  plain := rfl
  unconditional := rfl

end LumidPlatform.Mcp
