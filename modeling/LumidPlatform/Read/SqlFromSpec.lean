import LumidPlatform.Read.Bind

/-!
# SQL text comes from the specification

Two requests with the same parameters present and the same enum choices are
compared through the outcomes of their parameters. The outcomes agree up to the
content of coerced values, the recorded maps agree up to the content of values,
and the SQL text reads no content.
-/

namespace LumidPlatform.Read.SqlFromSpec

open LumidPlatform.Read.Spec LumidPlatform.Read.Dialect LumidPlatform.Read.Bind

/-- The variant a request selects of an enum parameter. -/
def enumChoice (crates : Crates) (path query : HashMap Str) (p : ParamSpec) : Option Str :=
  if p.isEnum then (rawValue path query p).map (fun raw => applyTransform crates raw p.transform)
  else none

/-- Two requests that give values to the same parameters and make the same enum
choices. Their other values are free. -/
structure SameSelections (crates : Crates) (spec : EndpointSpec)
    (path query path' query' : HashMap Str) : Prop where
  present : ∀ p ∈ spec.params,
    (rawValue path query p).isSome = (rawValue path' query' p).isSome
  choices : ∀ p ∈ spec.params,
    enumChoice crates path query p = enumChoice crates path' query' p

/-- Outcomes that differ at most in the content of a coerced value. -/
inductive Agrees : Outcome → Outcome → Prop where
  | absent : Agrees .absent .absent
  | chosen (choice bound : Str) : Agrees (.chosen choice bound) (.chosen choice bound)
  | coerced (v w : BindValue) (same : valueKind v = valueKind w) :
      Agrees (.coerced v) (.coerced w)

/-- Recorded maps that differ at most in the content of values. -/
structure Alike (acc acc' : Collected) : Prop where
  choices : acc.enumChoice = acc'.enumChoice
  present : acc.present = acc'.present
  kinds : ∀ name,
    (acc.values.lookup name).map valueKind = (acc'.values.lookup name).map valueKind

/-- A parameter present in both requests, with one choice if it is an enum, has
agreeing outcomes: the variant of a coerced value is fixed by its type. -/
theorem outcome_agrees {crates : Crates} {path query path' query' : HashMap Str} {p : ParamSpec}
    (present : (rawValue path query p).isSome = (rawValue path' query' p).isSome)
    (choices : enumChoice crates path query p = enumChoice crates path' query' p)
    {found found' : Outcome} (first : outcome crates path query p = .ok found)
    (second : outcome crates path' query' p = .ok found') : Agrees found found' := by
  cases raw : rawValue path query p with
  | none =>
    have raw' : rawValue path' query' p = none := by simpa [raw] using present
    simp only [outcome, raw] at first
    simp only [outcome, raw'] at second
    split_ifs at first second
    cases first
    cases second
    exact .absent
  | some r =>
    have given : (rawValue path' query' p).isSome = true := by rw [← present, raw]; rfl
    obtain ⟨r', raw'⟩ := Option.isSome_iff_exists.mp given
    by_cases enum : p.isEnum = true
    · have choice : applyTransform crates r p.transform = applyTransform crates r' p.transform := by
        simpa [enumChoice, enum, raw, raw'] using choices
      simp only [outcome, raw, enum, if_true] at first
      rw [choice] at first
      simp only [outcome, raw', enum, if_true] at second
      obtain rfl : found = found' := Except.ok.inj (first.symm.trans second)
      cases selected : p.select.lookup (applyTransform crates r' p.transform) with
      | none => simp [selected] at first
      | some map =>
        simp only [selected, Except.ok.injEq] at first
        exact first ▸ .chosen _ _
    · simp only [outcome, raw, enum] at first
      simp only [outcome, raw', enum] at second
      cases coerced : coerce crates p r with
      | error e => simp [coerced, Except.map] at first
      | ok v =>
        cases coerced' : coerce crates p r' with
        | error e => simp [coerced', Except.map] at second
        | ok w =>
          obtain rfl : Outcome.coerced v = found := by simpa [coerced, Except.map] using first
          obtain rfl : Outcome.coerced w = found' := by simpa [coerced', Except.map] using second
          have kinds := (coerce_valueKind coerced).symm.trans (coerce_valueKind coerced')
          exact .coerced v w (Option.some.inj kinds)

/-- Recording agreeing outcomes under one parameter keeps two maps alike. -/
theorem record_alike {crates : Crates} {acc acc' : Collected} (alike : Alike acc acc')
    (p : ParamSpec) {found found' : Outcome} (agrees : Agrees found found') :
    Alike (record crates acc p found) (record crates acc' p found') := by
  have inserted : ∀ v w : BindValue, valueKind v = valueKind w → ∀ name,
      ((acc.values.insert p.name v).lookup name).map valueKind =
        ((acc'.values.insert p.name w).lookup name).map valueKind := by
    intro v w same name
    by_cases here : name = p.name
    · subst here
      simp only [AList.lookup_insert, Option.map_some, same]
    · simp only [AList.lookup_insert_ne here, alike.kinds name]
  cases agrees with
  | absent => exact ⟨alike.choices, by simp only [record, alike.present], alike.kinds⟩
  | chosen choice bound =>
    exact ⟨by simp only [record, alike.choices], by simp only [record, alike.present],
      inserted _ _ rfl⟩
  | coerced v w same =>
    exact ⟨alike.choices, by simp only [record, alike.present], inserted v w same⟩

/-- By induction on the parameters, agreeing outcomes record alike maps. -/
theorem recordAll_alike {crates : Crates} {acc acc' : Collected} (alike : Alike acc acc')
    (params : List ParamSpec) {outcomes outcomes' : List Outcome}
    (agrees : List.Forall₂ Agrees outcomes outcomes') :
    Alike (recordAll crates acc params outcomes) (recordAll crates acc' params outcomes') := by
  induction agrees generalizing params acc acc' with
  | nil => cases params <;> exact alike
  | cons first _ inductionHypothesis =>
    cases params with
    | nil => exact alike
    | cons p rest => exact inductionHypothesis (record_alike alike p first) rest

/-- The outcomes of two requests with the same selections agree, one by one. -/
theorem outcomes_agree {crates : Crates} {path query path' query' : HashMap Str}
    {params : List ParamSpec}
    (present : ∀ p ∈ params, (rawValue path query p).isSome = (rawValue path' query' p).isSome)
    (choices : ∀ p ∈ params, enumChoice crates path query p = enumChoice crates path' query' p)
    {outcomes outcomes' : List Outcome}
    (each : List.Forall₂ (fun p found => outcome crates path query p = .ok found) params outcomes)
    (each' : List.Forall₂ (fun p found => outcome crates path' query' p = .ok found) params
      outcomes') : List.Forall₂ Agrees outcomes outcomes' := by
  induction each generalizing outcomes' with
  | nil =>
    cases each'
    exact .nil
  | @cons p found rest others first _ inductionHypothesis =>
    obtain ⟨found', others', second, tail', rfl⟩ := List.forall₂_cons_left_iff.mp each'
    have head := outcome_agrees (present p List.mem_cons_self) (choices p List.mem_cons_self)
      first second
    have tail := inductionHypothesis (fun q member => present q (List.mem_cons_of_mem p member))
      (fun q member => choices q (List.mem_cons_of_mem p member)) tail'
    exact .cons head tail

/-- Two requests that resolve, give values to the same parameters and make the same
enum choices get the same SQL, before and after its binds are lowered. What they
sent appears only among the bound values, which are the entries of the value map at
the binds of the common text. -/
theorem sql_independent_of_values (crates : Crates) (spec : EndpointSpec)
    (path query path' query' : HashMap Str)
    (same : SameSelections crates spec path query path' query') (bound bound' : Bound)
    (resolved : resolve crates spec path query = .ok bound)
    (resolved' : resolve crates spec path' query' = .ok bound') :
    bound.sql = bound'.sql ∧ bound.substituted = bound'.substituted ∧
      bound.values.map some = (bindNames bound.substituted).map bound.valueMap.lookup ∧
      bound'.values.map some = (bindNames bound.substituted).map bound'.valueMap.lookup := by
  obtain ⟨outcomes, each, finished⟩ := resolve_ok resolved
  obtain ⟨outcomes', each', finished'⟩ := resolve_ok resolved'
  obtain ⟨substituted, lowered, values, -⟩ := finish_ok finished
  obtain ⟨substituted', lowered', values', -⟩ := finish_ok finished'
  have alike : Alike (recordAll crates {} spec.params outcomes)
      (recordAll crates {} spec.params outcomes') :=
    recordAll_alike ⟨rfl, rfl, fun _ => rfl⟩ spec.params
      (outcomes_agree same.present same.choices each each')
  have text : bound.substituted = bound'.substituted := by
    rw [substituted, substituted', fragments_congr alike.choices alike.present]
  have variants : ∀ name v w,
      (recordAll crates {} spec.params outcomes).values.lookup name = some v →
      (recordAll crates {} spec.params outcomes').values.lookup name = some w →
      valueKind v = valueKind w := by
    intro name v w found found'
    simpa [found, found'] using alike.kinds name
  refine ⟨lowerBinds_sql variants lowered (text ▸ lowered'), text, ?_, ?_⟩
  · rw [values]
    exact lowerBinds_values lowered
  · rw [values', text]
    exact lowerBinds_values lowered'

/-- Bars of one symbol, optionally from a day on. -/
def bars : EndpointSpec where
  id := "bars".str
  path := "/bars/:key".str
  ttl := "60s".str
  sql := "SELECT v FROM t WHERE k = :key \x7b\x7bsince\x7d\x7d LIMIT :limit".str
  params := [
    { name := "key".str, kind := .path, ty := "key".str },
    { name := "since".str, kind := .query, ty := "str".str,
      present := mapOf [("since".str, "AND d >= :since".str)] },
    { name := "limit".str, kind := .query, ty := "int".str, default := some (.integer 10) }]

/-- A `since` that looks like SQL resolves to the same text as a plain one. -/
theorem bars_sql_independent : ∃ bound bound',
    resolve Crates.plain bars (mapOf [("key".str, "aapl".str)])
        (mapOf [("since".str, "'; DROP TABLE t".str)]) = .ok bound ∧
      resolve Crates.plain bars (mapOf [("key".str, "msft".str)])
        (mapOf [("since".str, "2024-01-01".str)]) = .ok bound' ∧
      bound.sql = bound'.sql ∧
      bound.sql = "SELECT v FROM t WHERE k = $1 AND d >= $2 LIMIT $3::int8".str := by
  have same : SameSelections Crates.plain bars (mapOf [("key".str, "aapl".str)])
      (mapOf [("since".str, "'; DROP TABLE t".str)]) (mapOf [("key".str, "msft".str)])
      (mapOf [("since".str, "2024-01-01".str)]) := ⟨by decide, by decide⟩
  exact ⟨_, _, rfl, rfl,
    (sql_independent_of_values Crates.plain bars _ _ _ _ same _ _ rfl rfl).1, by decide⟩

end LumidPlatform.Read.SqlFromSpec
