import LumidPlatform.Read.Ir

/-!
# Declarative read endpoints

The endpoint specifications of the read configuration and the checks a
specification passes before it is served. Deserialising the TOML text is the
`toml` crate's part: `parse` here starts from the endpoints it read. A value of
`default` other than the four scalar kinds is kept as the text it prints as. The
method and the description of an endpoint, and its declared row cap, are read by
no modelled function and left out.
-/

namespace LumidPlatform.Read.Spec

open LumidPlatform.Read.Ir

inductive Kind where
  | path
  | query
  deriving DecidableEq

inductive Transform where
  | none
  | upper
  | lower
  deriving DecidableEq

inductive Shape where
  | rows
  | one
  | envelope
  deriving DecidableEq

/-- A `toml::Value`; a date, an array or a table is the text it prints as. -/
inductive TomlValue where
  | string (s : Str)
  | integer (i : Int)
  | float (f : F64)
  | boolean (b : Bool)
  | other (text : Str)
  deriving DecidableEq

structure ParamSpec where
  name : Str
  kind : Kind
  ty : Str
  required : Bool := false
  default : Option TomlValue := none
  min : Option F64 := none
  max : Option F64 := none
  maxLen : Option Nat := none
  transform : Transform := .none
  select : HashMap (HashMap Str) := ∅
  present : HashMap Str := ∅
  absent : HashMap Str := ∅

namespace ParamSpec

def isEnum (p : ParamSpec) : Bool := p.ty == "enum".str || !p.select.entries.isEmpty

def isPresence (p : ParamSpec) : Bool :=
  !p.present.entries.isEmpty || !p.absent.entries.isEmpty

def effectivelyRequired (p : ParamSpec) : Bool := p.required || p.kind == .path

end ParamSpec

structure EndpointSpec where
  id : Str
  path : Str
  tables : List Str := []
  ttl : Str
  shape : Shape := .rows
  stripLineage : Bool := true
  envelopeKey : Option Str := none
  sql : Str
  params : List ParamSpec := []
  cache : Bool := true
  chFinal : Bool := false
  queryTimeoutMs : Option Nat := none
  adminCrossTenant : Bool := false
  selfTenant : Bool := false
  ir : Option QueryIr := none

namespace EndpointSpec

/-- An unreadable `ttl` counts as one minute. -/
def ttlDuration (crates : Crates) (spec : EndpointSpec) : Duration :=
  (crates.parseDuration spec.ttl).getD (Duration.ofSecs 60)

end EndpointSpec

/-! ## Fragments of a template -/

/-- The text before the first `}}` and the text after it. -/
def splitAtClose : Str → Option (Str × Str)
  | '}' :: '}' :: rest => some ([], rest)
  | c :: rest => (splitAtClose rest).map (fun parts => (c :: parts.1, parts.2))
  | [] => none

/-- The marker a template position starts with: its trimmed name, and how many
characters of it follow the first. -/
def marker : Str → Option (Str × Nat)
  | '{' :: '{' :: rest =>
    (splitAtClose rest).map (fun parts => (Text.trim parts.1, parts.1.length + 3))
  | _ => none

/-- `fragment_names` from a position, after skipping what is left of a marker. -/
def fragmentNamesFrom : Nat → Str → List Str
  | _, [] => []
  | skipped + 1, _ :: rest => fragmentNamesFrom skipped rest
  | 0, c :: rest =>
    match marker (c :: rest) with
    | some (name, length) =>
      if name.isEmpty then fragmentNamesFrom length rest
      else name :: fragmentNamesFrom length rest
    | none => fragmentNamesFrom 0 rest

/-- The names between `{{` and `}}`, trimmed, without the empty ones. -/
def fragmentNames (sql : Str) : List Str := fragmentNamesFrom 0 sql

/-! ## Load-time checks -/

/-- The fragment names that some parameter produces. -/
def produced (ep : EndpointSpec) : List Str :=
  ep.params.flatMap (fun p =>
    p.select.entries.flatMap (fun entry => entry.2.keys) ++ p.present.keys ++ p.absent.keys)

/-- The checks an endpoint passes before it is served. -/
def lint (crates : Crates) (ep : EndpointSpec) : ApiResult Unit :=
  let bail := fun m : Str => ApiError.internal ("spec '".str ++ ep.id ++ "': ".str ++ m)
  if Text.contains (crates.unicode.toLowercase ep.sql) "count(distinct".str then
    .error (bail "count(distinct ...) is banned on hypertables".str)
  else if (crates.parseDuration ep.ttl).isNone then
    .error (bail ("bad ttl '".str ++ ep.ttl ++ "'".str))
  else if ep.selfTenant && !Text.contains ep.sql ":tenant".str then
    .error (bail ("self_tenant = true but the SQL never references `:tenant`; the endpoint " ++
      "                 would read ACROSS tenants while appearing scoped").str)
  else if ep.selfTenant && !ep.params.any (fun p => p.name == "tenant".str) then
    .error (bail
      "self_tenant = true but no `tenant` param is declared; the bind cannot lower".str)
  else
    match (fragmentNames ep.sql).find? (fun frag => !(produced ep).contains frag) with
    | some frag =>
      .error (bail ("\x7b\x7b".str ++ frag ++
        "\x7d\x7d\x7d\x7d has no param producing it".str))
    | none => .ok ()

/-- `parse` after deserialisation: endpoints that fail the checks are dropped, the
others get the query the SELECT reader finds in their SQL. -/
def parse (crates : Crates) (parseSelect : Str → Option QueryIr) (endpoints : List EndpointSpec) :
    List EndpointSpec :=
  (endpoints.filter (fun ep => (lint crates ep).isOk)).map
    (fun ep => { ep with ir := parseSelect ep.sql })

/-- An endpoint that is served has passed the checks. -/
theorem lint_of_mem_parse {crates : Crates} {parseSelect : Str → Option QueryIr}
    {endpoints : List EndpointSpec} {spec : EndpointSpec}
    (served : spec ∈ parse crates parseSelect endpoints) : lint crates spec = .ok () := by
  obtain ⟨ep, kept, rfl⟩ := List.mem_map.mp served
  have passed : (lint crates ep).isOk = true := (List.mem_filter.mp kept).2
  have checked : lint crates ep = .ok () := by
    cases outcome : lint crates ep with
    | ok value => rfl
    | error e => simp [outcome, Except.isOk, Except.toBool] at passed
  exact checked

end LumidPlatform.Read.Spec
