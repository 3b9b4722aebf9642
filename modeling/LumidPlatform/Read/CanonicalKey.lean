import LumidPlatform.Read.Exec

/-!
# What the canonical text determines

The canonical text of a request joins `name=value` parts without escaping, so the
text of one value can imitate further parts. Where both requests keep the separator
out of their texts and parameter names are distinct, the text is taken apart again,
every parameter has one value in both, and the resolutions coincide. The echo of an
envelope repeats the path as it was sent, which the canonical text does not record.
-/

namespace LumidPlatform.Read.CanonicalKey

open LumidPlatform.Read.Spec LumidPlatform.Read.Dialect LumidPlatform.Read.Bind
  LumidPlatform.Read.Exec

/-- Both requests leave a parameter out, or give it texts that come to one choice or
one coerced value. -/
def SameValue (crates : Crates) (path query path' query' : HashMap Str) (p : ParamSpec) : Prop :=
  match rawValue path query p, rawValue path' query' p with
  | none, none => True
  | some r, some r' =>
    if p.isEnum then
      applyTransform crates r p.transform = applyTransform crates r' p.transform
    else coerce crates p r = coerce crates p r'
  | _, _ => False

/-- Parameter names can be told apart in a joined text. -/
structure PlainNames (spec : EndpointSpec) : Prop where
  distinct : (spec.params.map ParamSpec.name).Nodup
  equals : ∀ p ∈ spec.params, '=' ∉ p.name
  separator : ∀ p ∈ spec.params, '&' ∉ p.name

/-- No recorded text of a request holds the separator. -/
def PlainTexts (crates : Crates) (spec : EndpointSpec) (path query : HashMap Str) : Prop :=
  ∀ p ∈ spec.params, '&' ∉ (canonText crates path query p).getD []

/-- The pair of requests is no ambiguous one: they give every parameter the same
value, or names and texts keep the separators out. A float is compared by value,
since both signs of a number that is none print alike. -/
def Unambiguous (crates : Crates) (spec : EndpointSpec) (path query path' query' : HashMap Str) :
    Prop :=
  (∀ p ∈ spec.params, SameValue crates path query path' query' p) ∨
    (PlainNames spec ∧ PlainTexts crates spec path query ∧ PlainTexts crates spec path' query' ∧
      ∀ p ∈ spec.params, p.ty = "float".str → SameValue crates path query path' query' p)

/-- Parameters of one value have one outcome. -/
theorem outcome_eq_of_sameValue {crates : Crates} {path query path' query' : HashMap Str}
    {p : ParamSpec} (same : SameValue crates path query path' query' p) :
    outcome crates path query p = outcome crates path' query' p := by
  cases raw : rawValue path query p with
  | none =>
    cases raw' : rawValue path' query' p with
    | none => simp only [outcome, raw, raw']
    | some r' => simp [SameValue, raw, raw'] at same
  | some r =>
    cases raw' : rawValue path' query' p with
    | none => simp [SameValue, raw, raw'] at same
    | some r' =>
      by_cases enum : p.isEnum = true
      · have choice : applyTransform crates r p.transform =
            applyTransform crates r' p.transform := by
          simpa [SameValue, raw, raw', enum] using same
        simp only [outcome, raw, raw', enum, if_true]
        rw [choice]
      · have coerced : coerce crates p r = coerce crates p r' := by
          simpa [SameValue, raw, raw', enum] using same
        simp only [outcome, raw, raw', enum]
        rw [coerced]
        rfl

/-- Requests of one value for every parameter resolve alike. -/
theorem resolve_eq_of_sameValue {crates : Crates} {spec : EndpointSpec}
    {path query path' query' : HashMap Str}
    (same : ∀ p ∈ spec.params, SameValue crates path query path' query' p) :
    resolve crates spec path query = resolve crates spec path' query' := by
  have collected : ∀ (params : List ParamSpec) (acc : Collected),
      (∀ p ∈ params, SameValue crates path query path' query' p) →
      collectFrom crates path query acc params = collectFrom crates path' query' acc params := by
    intro params
    induction params with
    | nil => intro acc _; rfl
    | cons p rest inductionHypothesis =>
      intro acc each
      have head := outcome_eq_of_sameValue (each p List.mem_cons_self)
      simp only [collectFrom, head]
      cases outcome crates path' query' p with
      | error e => rfl
      | ok found =>
        exact inductionHypothesis _ (fun q member => each q (List.mem_cons_of_mem p member))
  simp only [resolve, collected spec.params {} same]

/-- Values of one variant with one text are one value, floats apart. -/
theorem canon_injective {crates : Crates} {v w : BindValue} (kinds : valueKind v = valueKind w)
    (float : valueKind v ≠ .float) (texts : v.canon crates = w.canon crates) : v = w := by
  cases v <;> cases w <;>
    simp only [valueKind, reduceCtorEq, ne_eq, not_true_eq_false] at kinds float
  · exact congrArg BindValue.text texts
  · exact congrArg BindValue.int (Text.showInt_injective texts)
  · exact congrArg BindValue.date (crates.showDate_injective texts)
  · exact congrArg BindValue.ts (crates.showRfc3339_injective texts)
  · exact congrArg BindValue.bool (Text.showBool_injective texts)

/-- A type of another kind is not the one found. -/
theorem next_kind {p : Prop} [Decidable p] {k found : ValueKind} {rest : Option ValueKind}
    (kind : (if p then some k else rest) = some found) (other : k ≠ found) :
    rest = some found := by
  by_cases holds : p
  · rw [if_pos holds] at kind
    exact absurd (Option.some.inj kind) other
  · rwa [if_neg holds] at kind

/-- Only the float type coerces to a float. -/
theorem typeKind_float {ty : Str} (kind : typeKind ty = some .float) : ty = "float".str := by
  rw [typeKind] at kind
  have afterKey := next_kind kind (by decide)
  have afterStr := next_kind afterKey (by decide)
  have fromFloat := next_kind afterStr (by decide)
  by_contra other
  rw [if_neg other] at fromFloat
  have afterDate := next_kind fromFloat (by decide)
  have afterTimestamp := next_kind afterDate (by decide)
  have afterBool := next_kind afterTimestamp (by decide)
  cases next_kind afterBool (by decide)

/-- A parameter whose two outcomes have one text has one value, a float apart. -/
theorem sameValue_of_text {crates : Crates} {path query path' query' : HashMap Str}
    {p : ParamSpec} {found found' : Outcome} (first : outcome crates path query p = .ok found)
    (second : outcome crates path' query' p = .ok found') (float : p.ty ≠ "float".str)
    (texts : canonText crates path query p = canonText crates path' query' p) :
    SameValue crates path query path' query' p := by
  have value : ∀ {path query : HashMap Str} {found : Outcome} {r : Str},
      outcome crates path query p = .ok found → rawValue path query p = some r →
      ¬p.isEnum = true → ∃ v, coerce crates p r = .ok v := by
    intro path query found r resolved raw enum
    cases coerced : coerce crates p r with
    | ok v => exact ⟨v, rfl⟩
    | error e => simp [outcome, raw, enum, coerced, Except.map] at resolved
  have given : ∀ {path query : HashMap Str} {found : Outcome} {r : Str},
      outcome crates path query p = .ok found → rawValue path query p = some r →
      canonText crates path query p ≠ none := by
    intro path query found r resolved raw
    by_cases enum : p.isEnum = true
    · simp [canonText, raw, enum]
    · obtain ⟨v, coerced⟩ := value resolved raw enum
      simp [canonText, raw, enum, coerced, Except.toOption]
  cases raw : rawValue path query p with
  | none =>
    cases raw' : rawValue path' query' p with
    | none => simp [SameValue, raw, raw']
    | some r' => exact absurd (texts ▸ by simp [canonText, raw]) (given second raw')
  | some r =>
    cases raw' : rawValue path' query' p with
    | none => exact absurd (texts.trans (by simp [canonText, raw'])) (given first raw)
    | some r' =>
      by_cases enum : p.isEnum = true
      · simpa [SameValue, canonText, raw, raw', enum] using texts
      · obtain ⟨v, coerced⟩ := value first raw enum
        obtain ⟨w, coerced'⟩ := value second raw' enum
        have kind := coerce_valueKind coerced
        have kinds : valueKind v = valueKind w :=
          Option.some.inj (kind.symm.trans (coerce_valueKind coerced'))
        have notFloat : valueKind v ≠ .float := fun isFloat =>
          float (typeKind_float (isFloat ▸ kind))
        have same : v.canon crates = w.canon crates := by
          simpa [canonText, raw, raw', enum, coerced, coerced', Except.toOption] using texts
        simp only [SameValue, raw, raw', enum]
        rw [coerced, coerced', canon_injective kinds notFloat same]
        rfl

/-- The parts of a request with plain names and plain texts are separable. -/
theorem separable_parts {crates : Crates} {spec : EndpointSpec} {path query : HashMap Str}
    (names : PlainNames spec) (texts : PlainTexts crates spec path query) :
    Joined.Separable '&' '=' (requestParts crates path query spec.params) := by
  have origin : ∀ named ∈ requestParts crates path query spec.params,
      ∃ p ∈ spec.params, p.name = named.1 ∧ canonText crates path query p = some named.2 := by
    intro named member
    obtain ⟨p, declared, recorded⟩ := List.mem_filterMap.mp member
    obtain ⟨text, found, rfl⟩ := Option.map_eq_some_iff.mp recorded
    exact ⟨p, declared, rfl, found⟩
  refine ⟨fun named member => ?_, fun named member => ?_, fun named member => ?_⟩
  · obtain ⟨p, declared, name, -⟩ := origin named member
    exact name ▸ names.equals p declared
  · obtain ⟨p, declared, name, -⟩ := origin named member
    exact name ▸ names.separator p declared
  · obtain ⟨p, declared, -, text⟩ := origin named member
    simpa [text] using texts p declared

/-- A part of one name comes from the one parameter of that name. -/
theorem canonText_of_mem_parts {crates : Crates} {spec : EndpointSpec} {path query : HashMap Str}
    (names : PlainNames spec) {p : ParamSpec} (declared : p ∈ spec.params) {text : Str} :
    (p.name, text) ∈ requestParts crates path query spec.params ↔
      canonText crates path query p = some text := by
  constructor
  · intro member
    obtain ⟨q, declared', recorded⟩ := List.mem_filterMap.mp member
    obtain ⟨text', found, pair⟩ := Option.map_eq_some_iff.mp recorded
    obtain ⟨name, rfl⟩ := Prod.mk.inj pair
    have same : q = p := List.inj_on_of_nodup_map names.distinct declared' declared name
    exact same ▸ found
  · intro found
    exact List.mem_filterMap.mpr ⟨p, declared, by rw [found]; rfl⟩

/-- Plain names and texts make the canonical text readable: two requests that share it
have the same text for every parameter. -/
theorem canonText_eq_of_canon {crates : Crates} {spec : EndpointSpec}
    {path query path' query' : HashMap Str} {bound bound' : Bound} (names : PlainNames spec)
    (texts : PlainTexts crates spec path query) (texts' : PlainTexts crates spec path' query')
    (resolved : resolve crates spec path query = .ok bound)
    (resolved' : resolve crates spec path' query' = .ok bound')
    (shared : bound.canon = bound'.canon) :
    ∀ p ∈ spec.params, canonText crates path query p = canonText crates path' query' p := by
  have sorted : (requestParts crates path query spec.params).insertionSort partLe =
      (requestParts crates path' query' spec.params).insertionSort partLe := by
    refine Joined.joined_injective (by decide)
      ((separable_parts names texts).perm (List.perm_insertionSort _ _).symm)
      ((separable_parts names texts').perm (List.perm_insertionSort _ _).symm) ?_
    rw [← resolve_canon resolved, ← resolve_canon resolved', shared]
  have order : (requestParts crates path query spec.params).Perm
      (requestParts crates path' query' spec.params) :=
    (List.perm_insertionSort partLe _).symm.trans
      (sorted ▸ List.perm_insertionSort partLe _)
  intro p declared
  refine Option.ext (fun text => ?_)
  rw [← canonText_of_mem_parts names declared, ← canonText_of_mem_parts names declared,
    order.mem_iff]

/-- An unambiguous pair of requests that share a canonical text gives every parameter
the same value. -/
theorem sameValue_of_canon {crates : Crates} {spec : EndpointSpec}
    {path query path' query' : HashMap Str} {bound bound' : Bound}
    (unambiguous : Unambiguous crates spec path query path' query')
    (resolved : resolve crates spec path query = .ok bound)
    (resolved' : resolve crates spec path' query' = .ok bound')
    (shared : bound.canon = bound'.canon) :
    ∀ p ∈ spec.params, SameValue crates path query path' query' p := by
  rcases unambiguous with same | ⟨names, texts, texts', floats⟩
  · exact same
  · have recorded := canonText_eq_of_canon names texts texts' resolved resolved' shared
    intro p declared
    by_cases float : p.ty = "float".str
    · exact floats p declared float
    · obtain ⟨found, first⟩ := resolve_outcome resolved p declared
      obtain ⟨found', second⟩ := resolve_outcome resolved' p declared
      exact sameValue_of_text first second float (recorded p declared)

/-- Both requests are sent with one echoed text, or with the text that is recorded for
the echoed path parameter. -/
def EchoRecorded (crates : Crates) (spec : EndpointSpec) (path query path' query' : HashMap Str) :
    Prop :=
  idEcho path = idEcho path' ∨
    ∃ p ∈ spec.params,
      idEcho path = (canonText crates path query p).map (fun text => (p.name, text)) ∧
        idEcho path' = (canonText crates path' query' p).map (fun text => (p.name, text))

/-- Parameters of one value record one text. -/
theorem canonText_eq_of_sameValue {crates : Crates} {path query path' query' : HashMap Str}
    {p : ParamSpec} (same : SameValue crates path query path' query' p) :
    canonText crates path query p = canonText crates path' query' p := by
  cases raw : rawValue path query p with
  | none =>
    cases raw' : rawValue path' query' p with
    | none => simp [canonText, raw, raw']
    | some r' => simp [SameValue, raw, raw'] at same
  | some r =>
    cases raw' : rawValue path' query' p with
    | none => simp [SameValue, raw, raw'] at same
    | some r' =>
      by_cases enum : p.isEnum = true
      · simpa [SameValue, canonText, raw, raw', enum] using same
      · have coerced : coerce crates p r = coerce crates p r' := by
          simpa [SameValue, raw, raw', enum] using same
        simp [canonText, raw, raw', enum, coerced]

/-- Two requests that resolve with one canonical text, are not ambiguous, and echo what
is recorded run one query with the same values and echo the same: a shared cached body
is the body either would have received. -/
theorem canon_determines_response (crates : Crates) (spec : EndpointSpec)
    (path query path' query' : HashMap Str) (bound bound' : Bound)
    (resolved : resolve crates spec path query = .ok bound)
    (resolved' : resolve crates spec path' query' = .ok bound')
    (shared : bound.canon = bound'.canon)
    (unambiguous : Unambiguous crates spec path query path' query')
    (echo : spec.shape = .envelope → EchoRecorded crates spec path query path' query') :
    bound.sql = bound'.sql ∧ bound.values = bound'.values ∧
      (spec.shape = .envelope → idEcho path = idEcho path') := by
  have same := sameValue_of_canon unambiguous resolved resolved' shared
  obtain rfl : bound = bound' := by
    have alike := resolve_eq_of_sameValue same
    rw [resolved, resolved'] at alike
    exact Except.ok.inj alike
  refine ⟨rfl, rfl, fun envelope => ?_⟩
  rcases echo envelope with sent | ⟨p, declared, first, second⟩
  · exact sent
  · rw [first, second, canonText_eq_of_sameValue (same p declared)]

/-- News with two optional text filters. -/
def news : EndpointSpec where
  id := "news".str
  path := "/news".str
  ttl := "60s".str
  sql := "SELECT title FROM n WHERE true \x7b\x7ba\x7d\x7d \x7b\x7bb\x7d\x7d".str
  params := [
    { name := "a".str, kind := .query, ty := "str".str,
      present := mapOf [("a".str, "AND topic = :a".str)] },
    { name := "b".str, kind := .query, ty := "str".str,
      present := mapOf [("b".str, "AND source = :b".str)] }]

/-- A query parameter that is not declared changes nothing. -/
theorem news_canon_determines : ∃ bound bound',
    resolve Crates.plain news ∅ (mapOf [("a".str, "fed".str)]) = .ok bound ∧
      resolve Crates.plain news ∅ (mapOf [("page".str, "2".str), ("a".str, "fed".str)]) =
        .ok bound' ∧
      bound.canon = bound'.canon ∧ bound.sql = bound'.sql ∧ bound.values = bound'.values := by
  have names : PlainNames news := ⟨by decide, by decide, by decide⟩
  have plain : Unambiguous Crates.plain news ∅ (mapOf [("a".str, "fed".str)]) ∅
      (mapOf [("page".str, "2".str), ("a".str, "fed".str)]) :=
    Or.inr ⟨names, by unfold PlainTexts; decide, by unfold PlainTexts; decide,
      fun p declared float => absurd float (by
        revert p
        decide)⟩
  have determined := canon_determines_response Crates.plain news _ _ _ _ _ _ rfl rfl
    (by decide +kernel) plain (fun envelope => absurd envelope (by decide))
  exact ⟨_, _, rfl, rfl, by decide +kernel, determined.1, determined.2.1⟩

/-- `?a=x%26b%3Dy` and `?a=x&b=y` share a canonical text and run different queries. -/
theorem news_canon_shared : ∃ query query' bound bound',
    parseQuery (some "a=x%26b%3Dy".str) = some query ∧
      parseQuery (some "a=x&b=y".str) = some query' ∧
      resolve Crates.plain news ∅ query = .ok bound ∧
      resolve Crates.plain news ∅ query' = .ok bound' ∧
      bound.canon = bound'.canon ∧ bound.sql ≠ bound'.sql ∧ bound.values ≠ bound'.values :=
  ⟨_, _, _, _, rfl, rfl, rfl, rfl, by decide +kernel, by decide +kernel, by decide +kernel⟩

end LumidPlatform.Read.CanonicalKey
