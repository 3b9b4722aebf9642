import Mathlib.Data.List.Sort
import LumidPlatform.Lib.Joined
import LumidPlatform.Read.Spec
import LumidPlatform.Read.Dialect

/-!
# Resolving a request

A request is its path map and its query map. Each declared parameter has an
outcome of its own: it is absent, it is an enum choice, or it is a coerced value.
The loop of the source records the outcomes in order, the last of two parameters
with one name winning, and the SQL, the values and the canonical cache text are
functions of what was recorded. Every fact about a pair of requests below is read
off their outcomes.
-/

namespace LumidPlatform.Read.Bind

open LumidPlatform.Read.Spec LumidPlatform.Read.Dialect

/-- What a request resolves to. The boxed parameters of the source are `values`. -/
structure Bound where
  sql : Str
  values : List BindValue
  substituted : Str
  valueMap : HashMap BindValue
  canon : Str

/-! ## Coercion -/

/-- `apply_transform`. -/
def applyTransform (crates : Crates) (s : Str) : Transform → Str
  | .none => s
  | .upper => crates.unicode.toUppercase s
  | .lower => crates.unicode.toLowercase s

/-- A default as the text that a request would have given. -/
def defaultStr (p : ParamSpec) : Option Str :=
  p.default.map (fun v => match v with
    | .string s => s
    | .integer i => Text.showInt i
    | .float f => f.toText
    | .boolean b => Text.showBool b
    | .other text => text)

/-- The bounds of a parameter, as an out-of-range error states them. -/
def boundsText (p : ParamSpec) : Str :=
  match p.min, p.max with
  | some mn, some mx =>
    "expected ".str ++ mn.toText ++ " <= ".str ++ p.name ++ " <= ".str ++ mx.toText
  | some mn, none => "expected ".str ++ p.name ++ " >= ".str ++ mn.toText
  | none, some mx => "expected ".str ++ p.name ++ " <= ".str ++ mx.toText
  | none, none => []

/-- `range_check`: a bound that is not set does not bound. The error names the parameter, and says
both. -/
def rangeCheck (p : ParamSpec) (v : F64) (raw : Str) : ApiResult Unit :=
  let below := p.min.any (fun mn => v.lt mn)
  let above := p.max.any (fun mx => mx.lt v)
  if !below && !above then .ok ()
  else .error (.validation (.array [.object [
    ("loc".str, .array [.string "query".str, .string p.name]),
    ("msg".str,
      .string ("value out of range: ".str ++ boundsText p ++ ", got ".str ++ raw)),
    ("type".str, .string "value_error.number.not_in_range".str),
    ("input".str, .string raw),
    ("ctx".str, .object [("min".str, Json.ofOptionF64 p.min),
      ("max".str, Json.ofOptionF64 p.max)])]]))

/-- A name as messages show it. -/
def quoted (name : Str) : Str := '\'' :: name ++ ['\'']

/-- The bytes a `key` value may consist of. -/
def isKeyChar (c : Char) : Bool :=
  Text.isAsciiAlphanumeric c || c == '.' || c == '-' || c == '_'

/-- `coerce`: keys and symbols are put in upper case before the transform; the other types are read by
their own parsers, and checked against the range where they are numbers. -/
def coerce (crates : Crates) (p : ParamSpec) (raw : Str) : ApiResult BindValue :=
  if p.ty = "key".str ∨ p.ty = "symbol".str then
    let s := applyTransform crates (crates.unicode.toUppercase (Text.trim raw)) p.transform
    if s.isEmpty || decide (20 < Text.byteLen s) || !s.all isKeyChar then
      .error (.badRequest ("invalid ".str ++ p.ty ++ ' ' :: quoted raw))
    else .ok (.text s)
  else if p.ty = "str".str then
    let s := applyTransform crates raw p.transform
    match p.maxLen with
    | some ml =>
      if ml < Text.byteLen s then
        .error (.badRequest (quoted p.name ++ " too long (max ".str ++ Text.showNat ml ++ [')']))
      else .ok (.text s)
    | none => .ok (.text s)
  else if p.ty = "int".str then
    match Text.parseI64 (Text.trim raw) with
    | none => .error (.badRequest (quoted p.name ++ " must be an integer".str))
    | some n => (rangeCheck p (F64.ofInt n) raw).map (fun _ => .int n)
  else if p.ty = "float".str then
    match F64.parse (Text.trim raw) with
    | none => .error (.badRequest (quoted p.name ++ " must be a number".str))
    | some f => (rangeCheck p f raw).map (fun _ => .float f)
  else if p.ty = "date".str then
    match crates.parseDate (Text.trim raw) with
    | none => .error (.badRequest (quoted p.name ++ " must be YYYY-MM-DD".str))
    | some d => .ok (.date d)
  else if p.ty = "timestamp".str then
    let s := Text.trim raw
    match (crates.parseRfc3339 s).or ((crates.parseDate s).map NaiveDate.midnight) with
    | none => .error (.badRequest (quoted p.name ++ " must be RFC3339 or YYYY-MM-DD".str))
    | some t => .ok (.ts t)
  else if p.ty = "bool".str then
    let s := crates.unicode.toLowercase (Text.trim raw)
    .ok (.bool (s == "1".str || s == "true".str || s == "yes".str))
  else if p.ty = "enum".str then .ok (.text (applyTransform crates raw p.transform))
  else .error (.badRequest ("unknown param type ".str ++ quoted p.ty))

/-! ## Collecting the parameters -/

/-- The text a request gives a parameter. -/
def rawValue (path query : HashMap Str) (p : ParamSpec) : Option Str :=
  match p.kind with
  | .path => path.lookup p.name
  | .query => (query.lookup p.name).or (defaultStr p)

/-- What a request makes of one parameter: nothing, an enum choice with the text
bound under the parameter's name, or a coerced value. -/
inductive Outcome where
  | absent
  | chosen (choice bound : Str)
  | coerced (v : BindValue)
  deriving DecidableEq

/-- The body of the first loop of `resolve`, before it records anything. -/
def outcome (crates : Crates) (path query : HashMap Str) (p : ParamSpec) : ApiResult Outcome :=
  match rawValue path query p with
  | none =>
    if p.effectivelyRequired then
      .error (.badRequest ("missing required ".str ++ quoted p.name))
    else .ok .absent
  | some r =>
    if p.isEnum then
      let choice := applyTransform crates r p.transform
      match p.select.lookup choice with
      | none =>
        let keys := p.select.keys.insertionSort (fun a b => Text.le a b = true)
        .error (.badRequest (quoted p.name ++ " must be one of ".str ++
          crates.unicode.debugList keys))
      | some map => .ok (.chosen choice ((map.lookup p.name).getD choice))
    else (coerce crates p r).map .coerced

/-- The maps the first loop of `resolve` builds. -/
structure Collected where
  values : HashMap BindValue := ∅
  enumChoice : HashMap Str := ∅
  present : HashMap Bool := ∅
  canonParts : List (Str × Str) := []

/-- A parameter is noted with its value, its choice and whether it was given. -/
def record (crates : Crates) (acc : Collected) (p : ParamSpec) : Outcome → Collected
  | .absent => { acc with present := acc.present.insert p.name false }
  | .chosen choice bound =>
    { values := acc.values.insert p.name (.text bound)
      enumChoice := acc.enumChoice.insert p.name choice
      present := acc.present.insert p.name true
      canonParts := acc.canonParts ++ [(p.name, choice)] }
  | .coerced v =>
    { acc with
      values := acc.values.insert p.name v
      present := acc.present.insert p.name true
      canonParts := acc.canonParts ++ [(p.name, v.canon crates)] }

/-- The first loop of `resolve`. -/
def collectFrom (crates : Crates) (path query : HashMap Str) (acc : Collected) :
    List ParamSpec → ApiResult Collected
  | [] => .ok acc
  | p :: rest =>
    match outcome crates path query p with
    | .ok found => collectFrom crates path query (record crates acc p found) rest
    | .error e => .error e

/-! ## Fragments and the canonical text -/

/-- The fragments one parameter chooses. -/
def chosenFragments (acc : Collected) (p : ParamSpec) : List (Sigma (fun _ : Str => Str)) :=
  if p.isEnum then
    match acc.enumChoice.lookup p.name with
    | some choice =>
      match p.select.lookup choice with
      | some map => map.entries
      | none => []
    | none => []
  else if p.isPresence then
    if (acc.present.lookup p.name).getD false then p.present.entries else p.absent.entries
  else []

/-- The second loop of `resolve`. -/
def fragments (acc : Collected) (params : List ParamSpec) : HashMap Str :=
  (params.flatMap (chosenFragments acc)).foldl (fun map entry => map.insert entry.1 entry.2) ∅

/-- `substitute_fragments` from a position, after skipping what is left of a marker. -/
def substituteFrom (fragments : HashMap Str) : Nat → Str → Str
  | _, [] => []
  | skipped + 1, _ :: rest => substituteFrom fragments skipped rest
  | 0, c :: rest =>
    match marker (c :: rest) with
    | some (name, length) =>
      (fragments.lookup name).getD [] ++ substituteFrom fragments length rest
    | none => Text.pushBytes c ++ substituteFrom fragments 0 rest

/-- Each fragment marker is replaced by its text. -/
def substituteFragments (sql : Str) (fragments : HashMap Str) : Str :=
  substituteFrom fragments 0 sql

/-- The order of `Vec<(String, String)>::sort`. -/
def partLe (a b : Str × Str) : Prop :=
  a.1 < b.1 ∨ (a.1 = b.1 ∧ a.2 ≤ b.2)

instance : DecidableRel partLe := fun a b =>
  inferInstanceAs (Decidable (a.1 < b.1 ∨ (a.1 = b.1 ∧ a.2 ≤ b.2)))

/-- `name=value` joined by `&`, in sorted order. -/
def canonOf (parts : List (Str × Str)) : Str :=
  Text.join ['&'] ((parts.insertionSort partLe).map (fun part => part.1 ++ '=' :: part.2))

/-- `resolve` after the first loop. -/
def finish (spec : EndpointSpec) (acc : Collected) : ApiResult Bound :=
  let substituted := substituteFragments spec.sql (fragments acc spec.params)
  (lowerBinds substituted acc.values).map (fun lowered =>
    { sql := lowered.sql
      values := lowered.values
      substituted := substituted
      valueMap := acc.values
      canon := canonOf acc.canonParts })

/-- `resolve`: all parameters in their order, then what is derived from them. -/
def resolve (crates : Crates) (spec : EndpointSpec) (path query : HashMap Str) : ApiResult Bound :=
  match collectFrom crates path query {} spec.params with
  | .ok acc => finish spec acc
  | .error e => .error e

/-! ## Outcomes determine the resolution -/

/-- Recording a list of outcomes, one for each parameter. -/
def recordAll (crates : Crates) (acc : Collected) :
    List ParamSpec → List Outcome → Collected
  | p :: params, found :: outcomes => recordAll crates (record crates acc p found) params outcomes
  | _, _ => acc

/-- The first loop succeeds exactly when every parameter has an outcome, and it
records them in order. -/
theorem collectFrom_ok_iff {crates : Crates} {path query : HashMap Str} {acc result : Collected}
    {params : List ParamSpec} :
    collectFrom crates path query acc params = .ok result ↔
      ∃ outcomes, List.Forall₂ (fun p found => outcome crates path query p = .ok found)
        params outcomes ∧ recordAll crates acc params outcomes = result := by
  induction params generalizing acc with
  | nil =>
    constructor
    · intro collected
      obtain rfl : acc = result := by simpa [collectFrom] using collected
      exact ⟨[], .nil, rfl⟩
    · rintro ⟨outcomes, each, recorded⟩
      cases each
      simpa [collectFrom, recordAll] using recorded
  | cons p rest inductionHypothesis =>
    constructor
    · intro collected
      cases first : outcome crates path query p with
      | error e => simp [collectFrom, first] at collected
      | ok found =>
        obtain ⟨outcomes, each, recorded⟩ :=
          inductionHypothesis.mp (by simpa only [collectFrom, first] using collected)
        exact ⟨found :: outcomes, .cons first each, recorded⟩
    · rintro ⟨outcomes, each, recorded⟩
      obtain ⟨found, others, first, tail, rfl⟩ := List.forall₂_cons_left_iff.mp each
      have collected := inductionHypothesis.mpr ⟨others, tail, recorded⟩
      simpa only [collectFrom, first] using collected

/-- A request that resolves has an outcome for every parameter, and its resolution
is that of the recorded outcomes. -/
theorem resolve_ok {crates : Crates} {spec : EndpointSpec} {path query : HashMap Str}
    {bound : Bound} (resolved : resolve crates spec path query = .ok bound) :
    ∃ outcomes, List.Forall₂ (fun p found => outcome crates path query p = .ok found)
        spec.params outcomes ∧
      finish spec (recordAll crates {} spec.params outcomes) = .ok bound := by
  cases collected : collectFrom crates path query {} spec.params with
  | error e => simp [resolve, collected] at resolved
  | ok acc =>
    obtain ⟨outcomes, each, rfl⟩ := collectFrom_ok_iff.mp collected
    exact ⟨outcomes, each, by simpa only [resolve, collected] using resolved⟩

/-- Every declared parameter of a request that resolves has an outcome. -/
theorem resolve_outcome {crates : Crates} {spec : EndpointSpec} {path query : HashMap Str}
    {bound : Bound} (resolved : resolve crates spec path query = .ok bound) :
    ∀ p ∈ spec.params, ∃ found, outcome crates path query p = .ok found := by
  obtain ⟨outcomes, each, -⟩ := resolve_ok resolved
  generalize spec.params = params at each
  induction each with
  | nil => simp
  | cons first _ inductionHypothesis =>
    intro p member
    rcases List.mem_cons.mp member with rfl | later
    · exact ⟨_, first⟩
    · exact inductionHypothesis p later

/-- Outcomes for all parameters make a list of outcomes. -/
theorem outcomes_of_forall {crates : Crates} {path query : HashMap Str}
    {params : List ParamSpec}
    (each : ∀ p ∈ params, ∃ found, outcome crates path query p = .ok found) :
    ∃ outcomes, List.Forall₂ (fun p found => outcome crates path query p = .ok found)
      params outcomes := by
  induction params with
  | nil => exact ⟨[], .nil⟩
  | cons p rest inductionHypothesis =>
    obtain ⟨found, first⟩ := each p List.mem_cons_self
    obtain ⟨outcomes, tail⟩ :=
      inductionHypothesis (fun q member => each q (List.mem_cons_of_mem p member))
    exact ⟨found :: outcomes, .cons first tail⟩

/-- What `finish` reads off the recorded maps, field by field. -/
theorem finish_ok {spec : EndpointSpec} {acc : Collected} {bound : Bound}
    (finished : finish spec acc = .ok bound) :
    bound.substituted = substituteFragments spec.sql (fragments acc spec.params) ∧
      lowerBinds bound.substituted acc.values = .ok ⟨bound.sql, bound.values⟩ ∧
      bound.valueMap = acc.values ∧ bound.canon = canonOf acc.canonParts := by
  cases lowered :
      lowerBinds (substituteFragments spec.sql (fragments acc spec.params)) acc.values with
  | error e => simp [finish, lowered, Except.map] at finished
  | ok result =>
    simp only [finish, lowered, Except.map, Except.ok.injEq] at finished
    subst finished
    exact ⟨rfl, lowered, rfl, rfl⟩

/-- The recorded maps resolve when they have a value for every bind of the SQL. -/
theorem finish_isOk {spec : EndpointSpec} {acc : Collected}
    (bound : ∀ name ∈ bindNames (substituteFragments spec.sql (fragments acc spec.params)),
      (acc.values.lookup name).isSome = true) : ∃ result, finish spec acc = .ok result := by
  obtain ⟨lowered, isOk⟩ := lowerBinds_isOk bound
  simp only [finish, isOk]
  exact ⟨_, rfl⟩

/-- The fragments of a request depend on its enum choices and on which parameters
are present. -/
theorem fragments_congr {acc acc' : Collected} (choices : acc.enumChoice = acc'.enumChoice)
    (present : acc.present = acc'.present) (params : List ParamSpec) :
    fragments acc params = fragments acc' params := by
  have each : chosenFragments acc = chosenFragments acc' := by
    funext p
    simp only [chosenFragments, choices, present]
  simp only [fragments, each]

/-! ## The canonical text of a request -/

/-- The text of an outcome in the canonical key. -/
def Outcome.text (crates : Crates) : Outcome → Option Str
  | .absent => none
  | .chosen choice _ => some choice
  | .coerced v => some (v.canon crates)

/-- The text a request records for a parameter: the enum choice, or the coerced value
as text. -/
def canonText (crates : Crates) (path query : HashMap Str) (p : ParamSpec) : Option Str :=
  (rawValue path query p).bind (fun raw =>
    if p.isEnum then some (applyTransform crates raw p.transform)
    else (coerce crates p raw).toOption.map (BindValue.canon crates))

/-- The parts of the canonical text, in the order of the parameters. -/
def requestParts (crates : Crates) (path query : HashMap Str) (params : List ParamSpec) :
    List (Str × Str) :=
  params.filterMap (fun p => (canonText crates path query p).map (fun text => (p.name, text)))

/-- What is recorded for a parameter is its canonical text. -/
theorem outcome_text {crates : Crates} {path query : HashMap Str} {p : ParamSpec}
    {found : Outcome} (resolved : outcome crates path query p = .ok found) :
    found.text crates = canonText crates path query p := by
  cases raw : rawValue path query p with
  | none =>
    simp only [outcome, raw] at resolved
    split_ifs at resolved
    cases resolved
    simp [Outcome.text, canonText, raw]
  | some r =>
    by_cases enum : p.isEnum = true
    · simp only [outcome, raw, enum, if_true] at resolved
      cases selected : p.select.lookup (applyTransform crates r p.transform) with
      | none => simp [selected] at resolved
      | some map =>
        simp only [selected, Except.ok.injEq] at resolved
        simp [← resolved, Outcome.text, canonText, raw, enum]
    · simp only [outcome, raw, enum] at resolved
      cases coerced : coerce crates p r with
      | error e => simp [coerced, Except.map] at resolved
      | ok v =>
        obtain rfl : Outcome.coerced v = found := by simpa [coerced, Except.map] using resolved
        simp [Outcome.text, canonText, raw, enum, coerced, Except.toOption]

/-- Recording the outcomes of a request appends its parts. -/
theorem recordAll_canonParts {crates : Crates} {path query : HashMap Str} (acc : Collected)
    {params : List ParamSpec} {outcomes : List Outcome}
    (each : List.Forall₂ (fun p found => outcome crates path query p = .ok found)
      params outcomes) :
    (recordAll crates acc params outcomes).canonParts =
      acc.canonParts ++ requestParts crates path query params := by
  induction each generalizing acc with
  | nil => simp [recordAll, requestParts]
  | @cons p found params outcomes first _ inductionHypothesis =>
    have text := outcome_text first
    rw [recordAll, inductionHypothesis]
    cases found <;>
      simp [record, requestParts, ← text, Outcome.text]

/-- The canonical text of a resolved request joins its parts in sorted order. -/
theorem resolve_canon {crates : Crates} {spec : EndpointSpec} {path query : HashMap Str}
    {bound : Bound} (resolved : resolve crates spec path query = .ok bound) :
    bound.canon = Joined.joined '&' '='
      ((requestParts crates path query spec.params).insertionSort partLe) := by
  obtain ⟨outcomes, each, finished⟩ := resolve_ok resolved
  obtain ⟨-, -, -, canon⟩ := finish_ok finished
  have parts := recordAll_canonParts {} each
  rw [canon, parts]
  rfl

/-! ## The value of one name -/

/-- The value an outcome binds. -/
def Outcome.value : Outcome → Option BindValue
  | .absent => none
  | .chosen _ bound => some (.text bound)
  | .coerced v => some v

/-- What a raw text comes to under a parameter, where it is accepted. -/
def paramValue (crates : Crates) (p : ParamSpec) (raw : Str) : Option BindValue :=
  if p.isEnum then
    (p.select.lookup (applyTransform crates raw p.transform)).map (fun map =>
      .text ((map.lookup p.name).getD (applyTransform crates raw p.transform)))
  else (coerce crates p raw).toOption

/-- A parameter that is given has the value of its raw text. -/
theorem outcome_value {crates : Crates} {path query : HashMap Str} {p : ParamSpec}
    {found : Outcome} {raw : Str} (resolved : outcome crates path query p = .ok found)
    (given : rawValue path query p = some raw) :
    found.value = paramValue crates p raw ∧ found.value.isSome = true := by
  by_cases enum : p.isEnum = true
  · simp only [outcome, given, enum, if_true] at resolved
    cases selected : p.select.lookup (applyTransform crates raw p.transform) with
    | none => simp [selected] at resolved
    | some map =>
      simp only [selected, Except.ok.injEq] at resolved
      simp [← resolved, Outcome.value, paramValue, enum, selected]
  · simp only [outcome, given, enum] at resolved
    cases coerced : coerce crates p raw with
    | error e => simp [coerced, Except.map] at resolved
    | ok v =>
      obtain rfl : Outcome.coerced v = found := by simpa [coerced, Except.map] using resolved
      simp [Outcome.value, paramValue, enum, coerced, Except.toOption]

/-- The last parameter of a name. -/
def lastNamed (name : Str) : List ParamSpec → Option ParamSpec
  | [] => none
  | p :: rest => (lastNamed name rest).or (if p.name = name then some p else none)

/-- A declared name has a last declaration. -/
theorem lastNamed_isSome {name : Str} {params : List ParamSpec} {p : ParamSpec}
    (declared : p ∈ params) (named : p.name = name) : (lastNamed name params).isSome = true := by
  induction params with
  | nil => simp at declared
  | cons q rest inductionHypothesis =>
    rcases List.mem_cons.mp declared with rfl | later
    · cases lastNamed name rest <;> simp [lastNamed, named]
    · simp [lastNamed, inductionHypothesis later]

/-- The last declaration of a name is a declaration of it. -/
theorem lastNamed_eq_some {name : Str} {params : List ParamSpec} {p : ParamSpec}
    (last : lastNamed name params = some p) : p ∈ params ∧ p.name = name := by
  induction params with
  | nil => simp [lastNamed] at last
  | cons q rest inductionHypothesis =>
    cases tail : lastNamed name rest with
    | some r =>
      obtain rfl : r = p := by simpa [lastNamed, tail] using last
      have found := inductionHypothesis tail
      exact ⟨List.mem_cons_of_mem q found.1, found.2⟩
    | none =>
      simp only [lastNamed, tail, Option.none_or] at last
      split_ifs at last with named
      obtain rfl : q = p := Option.some.inj last
      exact ⟨List.mem_cons_self, named⟩

/-- Recording a parameter leaves the values of the others. -/
theorem record_lookup_ne {crates : Crates} {acc : Collected} {p : ParamSpec} {name : Str}
    (other : name ≠ p.name) (found : Outcome) :
    (record crates acc p found).values.lookup name = acc.values.lookup name := by
  cases found <;> simp [record, AList.lookup_insert_ne other]

/-- It sets the value of its own. -/
theorem record_lookup (crates : Crates) (acc : Collected) (p : ParamSpec) {found : Outcome}
    (given : found.value.isSome = true) :
    (record crates acc p found).values.lookup p.name = found.value := by
  cases found <;> simp [record, Outcome.value] at given ⊢

/-- Where a request gives every parameter of a name a text, the name is bound to the
value the last of them makes of its text. -/
theorem recordAll_lookup {crates : Crates} {path query : HashMap Str} {name : Str}
    (acc : Collected) {params : List ParamSpec} {outcomes : List Outcome}
    (each : List.Forall₂ (fun p found => outcome crates path query p = .ok found) params outcomes)
    (given : ∀ p ∈ params, p.name = name → (rawValue path query p).isSome = true) :
    (recordAll crates acc params outcomes).values.lookup name =
      match lastNamed name params with
      | some p => (rawValue path query p).bind (paramValue crates p)
      | none => acc.values.lookup name := by
  induction each generalizing acc with
  | nil => simp [recordAll, lastNamed]
  | @cons p found rest others first _ inductionHypothesis =>
    have tail := inductionHypothesis (record crates acc p found)
      (fun q member => given q (List.mem_cons_of_mem p member))
    rw [recordAll, tail]
    cases later : lastNamed name rest with
    | some q => simp [lastNamed, later]
    | none =>
      by_cases named : p.name = name
      · obtain ⟨raw, text⟩ := Option.isSome_iff_exists.mp (given p List.mem_cons_self named)
        obtain ⟨value, isSome⟩ := outcome_value first text
        have bound := record_lookup crates acc p isSome
        simp only [lastNamed, later, named, Option.none_or, if_true, text, Option.bind_some]
        rw [← named, bound, value]
      · simp only [lastNamed, later, named, Option.none_or, if_false]
        exact record_lookup_ne (fun same => named same.symm) found

/-! ## The variant of a coerced value -/

/-- The variant a parameter type coerces to. -/
def typeKind (ty : Str) : Option ValueKind :=
  if ty = "key".str ∨ ty = "symbol".str then some .text
  else if ty = "str".str then some .text
  else if ty = "int".str then some .int
  else if ty = "float".str then some .float
  else if ty = "date".str then some .date
  else if ty = "timestamp".str then some .ts
  else if ty = "bool".str then some .bool
  else if ty = "enum".str then some .text
  else none

/-- The variant of a coerced value is fixed by the declared type alone. -/
theorem coerce_valueKind {crates : Crates} {p : ParamSpec} {raw : Str} {v : BindValue}
    (coerced : coerce crates p raw = .ok v) : typeKind p.ty = some (valueKind v) := by
  have mapped : ∀ (checked : ApiResult Unit) (w : BindValue),
      checked.map (fun _ => w) = .ok v → v = w := by
    intro checked w
    cases checked <;> simp [Except.map, eq_comm]
  rw [coerce] at coerced
  rw [typeKind]
  by_cases key : p.ty = "key".str ∨ p.ty = "symbol".str
  · rw [if_pos key] at coerced ⊢
    dsimp only at coerced
    split at coerced <;> cases coerced
    rfl
  rw [if_neg key] at coerced ⊢
  by_cases str : p.ty = "str".str
  · rw [if_pos str] at coerced ⊢
    dsimp only at coerced
    cases limit : p.maxLen with
    | none =>
      rw [limit] at coerced
      cases coerced
      rfl
    | some ml =>
      rw [limit] at coerced
      dsimp only at coerced
      split at coerced <;> cases coerced
      rfl
  rw [if_neg str] at coerced ⊢
  by_cases int : p.ty = "int".str
  · rw [if_pos int] at coerced ⊢
    cases parsed : Text.parseI64 (Text.trim raw) with
    | none => simp [parsed] at coerced
    | some n =>
      simp only [parsed] at coerced
      rw [mapped _ _ coerced, valueKind]
  rw [if_neg int] at coerced ⊢
  by_cases float : p.ty = "float".str
  · rw [if_pos float] at coerced ⊢
    cases parsed : F64.parse (Text.trim raw) with
    | none => simp [parsed] at coerced
    | some f =>
      simp only [parsed] at coerced
      rw [mapped _ _ coerced, valueKind]
  rw [if_neg float] at coerced ⊢
  by_cases date : p.ty = "date".str
  · rw [if_pos date] at coerced ⊢
    cases parsed : crates.parseDate (Text.trim raw) with
    | none => simp [parsed] at coerced
    | some d =>
      simp only [parsed, Except.ok.injEq] at coerced
      rw [← coerced, valueKind]
  rw [if_neg date] at coerced ⊢
  by_cases time : p.ty = "timestamp".str
  · rw [if_pos time] at coerced ⊢
    dsimp only at coerced
    cases parsed : (crates.parseRfc3339 (Text.trim raw)).or
        ((crates.parseDate (Text.trim raw)).map NaiveDate.midnight) with
    | none => simp [parsed] at coerced
    | some t =>
      simp only [parsed, Except.ok.injEq] at coerced
      rw [← coerced, valueKind]
  rw [if_neg time] at coerced ⊢
  by_cases bool : p.ty = "bool".str
  · rw [if_pos bool] at coerced ⊢
    cases coerced
    rfl
  rw [if_neg bool] at coerced ⊢
  by_cases enum : p.ty = "enum".str
  · rw [if_pos enum] at coerced ⊢
    cases coerced
    rfl
  · rw [if_neg enum] at coerced
    cases coerced

end LumidPlatform.Read.Bind
