import Mathlib.Data.Char
import Mathlib.Data.List.Lex
import Mathlib.Data.Prod.Lex
import LumidPlatform.Read.Exec
import LumidPlatform.Read.SqlFromSpec

/-!
# Cache keys of elevated callers

The key of an elevated caller is the canonical text of its request followed by a
marker. A request that does not elevate has a different key unless its own canonical
text ends with the marker. Where the last recorded part is free text, a text ending
with the marker is cut to a request whose elevated key is the same.
-/

namespace LumidPlatform.Read.Elevation

open LumidPlatform.Read.Spec LumidPlatform.Read.Dialect LumidPlatform.Read.Bind
  LumidPlatform.Read.Cache LumidPlatform.Read.Exec LumidPlatform.Read.SqlFromSpec

/-- What an elevated key ends with. -/
def marker (role : Str) : Str := Char.ofNat 1 :: "admin_read=".str ++ role

theorem keyCanon_elevated {canon role : Str} (elevated : role ≠ []) :
    keyCanon canon role = canon ++ marker role := by
  have nonempty : role.isEmpty = false := by
    cases role with
    | nil => exact absurd rfl elevated
    | cons c rest => rfl
  simp [keyCanon, nonempty, marker]

/-! ## Sorting with the greatest part last -/

theorem partLe_iff (a b : Str × Str) : partLe a b ↔ toLex a ≤ toLex b := by
  rw [Prod.Lex.le_iff]
  exact Iff.rfl

instance : Std.Total partLe := ⟨fun a b => by
  rw [partLe_iff, partLe_iff]
  exact le_total _ _⟩

instance : IsTrans (Str × Str) partLe := ⟨fun a b c first second => by
  rw [partLe_iff] at first second ⊢
  exact le_trans first second⟩

instance : Std.Antisymm partLe := ⟨fun a b first second => by
  rw [partLe_iff] at first second
  exact toLex.injective (le_antisymm first second)⟩

/-- A part above all others is sorted to the end. -/
theorem insertionSort_last {parts rest : List (Str × Str)} {last : Str × Str}
    (order : parts.Perm (rest ++ [last])) (greatest : ∀ named ∈ rest, partLe named last) :
    parts.insertionSort partLe = rest.insertionSort partLe ++ [last] := by
  refine List.Perm.eq_of_pairwise' (List.pairwise_insertionSort partLe parts) ?_ ?_
  · refine List.pairwise_append.mpr ⟨List.pairwise_insertionSort partLe rest,
      List.pairwise_singleton _ _, ?_⟩
    intro named member named' member'
    rw [List.mem_singleton.mp member']
    exact greatest named ((List.perm_insertionSort partLe rest).mem_iff.mp member)
  · exact (List.perm_insertionSort partLe parts).trans
      (order.trans ((List.perm_insertionSort partLe rest).symm.append_right [last]))

/-! ## Cutting the marker off -/

/-- A query parameter that takes any text as it is. -/
structure FreeText (p : ParamSpec) : Prop where
  kind : p.kind = .query
  ty : p.ty = "str".str
  transform : p.transform = .none
  select : p.select = ∅

theorem FreeText.notEnum {p : ParamSpec} (free : FreeText p) : p.isEnum = false := by
  simp only [ParamSpec.isEnum, free.ty, free.select]
  decide

/-- A free-text parameter takes a text when it takes a longer one, as it stands. -/
theorem FreeText.coerce {crates : Crates} {p : ParamSpec} (free : FreeText p) {raw : Str}
    {v : BindValue} (accepted : Bind.coerce crates p raw = .ok v) :
    v = .text raw ∧ ∀ front back, raw = front ++ back →
      Bind.coerce crates p front = .ok (.text front) := by
  have notKey : ¬(p.ty = "key".str ∨ p.ty = "symbol".str) := by
    rw [free.ty]
    decide
  simp only [Bind.coerce, if_neg notKey, if_pos free.ty, applyTransform, free.transform]
    at accepted ⊢
  cases limit : p.maxLen with
  | none =>
    simp only [limit] at accepted ⊢
    exact ⟨(Except.ok.inj accepted).symm, fun _ _ _ => trivial⟩
  | some ml =>
    simp only [limit] at accepted ⊢
    split_ifs at accepted with long
    refine ⟨(Except.ok.inj accepted).symm, fun front back split => ?_⟩
    have shorter : Text.byteLen front ≤ Text.byteLen raw := by
      rw [split, Text.byteLen, Text.byteLen, Text.utf8_append, List.length_append]
      omega
    rw [if_neg (by omega)]

/-- The last recorded part of a request is a free text ending with the marker. -/
structure MarkedLast (crates : Crates) (spec : EndpointSpec) (path query : HashMap Str)
    (role : Str) (p : ParamSpec) (text : Str) : Prop where
  distinct : (spec.params.map ParamSpec.name).Nodup
  declared : p ∈ spec.params
  free : FreeText p
  greatest : ∀ q ∈ spec.params, q.name ≠ p.name → canonText crates path query q ≠ none →
    q.name < p.name
  given : query.lookup p.name = some (text ++ marker role)

section Cut

variable {crates : Crates} {spec : EndpointSpec} {path query : HashMap Str} {role : Str}
  {p : ParamSpec} {text : Str} {bound : Bound}

/-- Cutting the marker off leaves the other parameters as they were. -/
theorem rawValue_insert_ne {q : ParamSpec} (other : q.name ≠ p.name) :
    rawValue path (query.insert p.name text) q = rawValue path query q := by
  cases kind : q.kind with
  | path => simp [rawValue, kind]
  | query => simp [rawValue, kind, AList.lookup_insert_ne other]

theorem MarkedLast.rawValue_self (marked : MarkedLast crates spec path query role p text) :
    rawValue path query p = some (text ++ marker role) ∧
      rawValue path (query.insert p.name text) p = some text := by
  constructor
  · simp [rawValue, marked.free.kind, marked.given]
  · simp [rawValue, marked.free.kind]

theorem MarkedLast.same (marked : MarkedLast crates spec path query role p text) {q : ParamSpec}
    (declared : q ∈ spec.params) (named : q.name = p.name) : q = p :=
  List.inj_on_of_nodup_map marked.distinct declared marked.declared named

/-- The cut text is taken as it stands, like the marked one. -/
theorem MarkedLast.coerced (marked : MarkedLast crates spec path query role p text)
    (resolved : resolve crates spec path query = .ok bound) :
    Bind.coerce crates p (text ++ marker role) = .ok (.text (text ++ marker role)) ∧
      Bind.coerce crates p text = .ok (.text text) := by
  obtain ⟨found, first⟩ := resolve_outcome resolved p marked.declared
  have enum := marked.free.notEnum
  simp only [outcome, marked.rawValue_self.1, enum] at first
  cases accepted : Bind.coerce crates p (text ++ marker role) with
  | error e => simp [accepted, Except.map] at first
  | ok v =>
    obtain ⟨rfl, shorter⟩ := marked.free.coerce accepted
    exact ⟨rfl, shorter text (marker role) rfl⟩

/-- The cut request gives every parameter an outcome. -/
theorem MarkedLast.outcomes (marked : MarkedLast crates spec path query role p text)
    (resolved : resolve crates spec path query = .ok bound) :
    ∀ q ∈ spec.params,
      ∃ found, outcome crates path (query.insert p.name text) q = .ok found := by
  intro q declared
  by_cases named : q.name = p.name
  · obtain rfl := marked.same declared named
    refine ⟨.coerced (.text text), ?_⟩
    simp [outcome, marked.rawValue_self.2, marked.free.notEnum, (marked.coerced resolved).2,
      Except.map]
  · obtain ⟨found, first⟩ := resolve_outcome resolved q declared
    refine ⟨found, ?_⟩
    rw [← first]
    simp only [outcome, rawValue_insert_ne named]

/-- The cut request makes the same selections. -/
theorem MarkedLast.selections (marked : MarkedLast crates spec path query role p text) :
    SameSelections crates spec path query path (query.insert p.name text) where
  present q declared := by
    by_cases named : q.name = p.name
    · obtain rfl := marked.same declared named
      rw [marked.rawValue_self.1, marked.rawValue_self.2]
      rfl
    · rw [rawValue_insert_ne named]
  choices q declared := by
    by_cases named : q.name = p.name
    · obtain rfl := marked.same declared named
      simp [enumChoice, marked.free.notEnum]
    · simp only [enumChoice, rawValue_insert_ne named]

/-- The cut request resolves: every bind that had a value has one of the same variant. -/
theorem MarkedLast.resolves (marked : MarkedLast crates spec path query role p text)
    (resolved : resolve crates spec path query = .ok bound) :
    ∃ bound', resolve crates spec path (query.insert p.name text) = .ok bound' := by
  obtain ⟨outcomes, each, finished⟩ := resolve_ok resolved
  obtain ⟨outcomes', each'⟩ := outcomes_of_forall (marked.outcomes resolved)
  obtain ⟨substituted, lowered, values, -⟩ := finish_ok finished
  have alike : Alike (recordAll crates {} spec.params outcomes)
      (recordAll crates {} spec.params outcomes') :=
    recordAll_alike ⟨rfl, rfl, fun _ => rfl⟩ spec.params
      (outcomes_agree marked.selections.present marked.selections.choices each each')
  have collected : collectFrom crates path (query.insert p.name text) {} spec.params =
      .ok (recordAll crates {} spec.params outcomes') :=
    collectFrom_ok_iff.mpr ⟨outcomes', each', rfl⟩
  have bound_names : ∀ name ∈ bindNames (substituteFragments spec.sql
      (fragments (recordAll crates {} spec.params outcomes') spec.params)),
      ((recordAll crates {} spec.params outcomes').values.lookup name).isSome = true := by
    intro name member
    rw [← fragments_congr alike.choices alike.present, ← substituted] at member
    have found : (recordAll crates {} spec.params outcomes).values.lookup name ∈
        bound.values.map some := by
      rw [lowerBinds_values lowered]
      exact List.mem_map_of_mem member
    obtain ⟨v, -, value⟩ := List.mem_map.mp found
    have kinds := alike.kinds name
    rw [← value] at kinds
    cases other : (recordAll crates {} spec.params outcomes').values.lookup name with
    | some w => rfl
    | none => simp [other] at kinds
  obtain ⟨result, isOk⟩ := finish_isOk bound_names
  exact ⟨result, by simp only [resolve, collected, isOk]⟩

/-- The parts of the two requests are those of the other parameters, and the free text
with and without the marker. -/
theorem MarkedLast.parts (marked : MarkedLast crates spec path query role p text)
    (resolved : resolve crates spec path query = .ok bound) :
    ∃ others : List (Str × Str), (∀ named ∈ others, partLe named (p.name, text ++ marker role) ∧
        partLe named (p.name, text)) ∧
      (requestParts crates path query spec.params).Perm
        (others ++ [(p.name, text ++ marker role)]) ∧
      (requestParts crates path (query.insert p.name text) spec.params).Perm
        (others ++ [(p.name, text)]) := by
  have alone : spec.params.filter (fun q => !decide (q.name ≠ p.name)) = [p] := by
    have member : p ∈ spec.params.filter (fun q => !decide (q.name ≠ p.name)) := by
      simp [marked.declared]
    have nodup : (spec.params.filter (fun q => !decide (q.name ≠ p.name))).Nodup :=
      (List.Nodup.of_map _ marked.distinct).filter _
    refine List.perm_singleton.mp ((List.perm_ext_iff_of_nodup nodup
      (List.nodup_singleton p)).mpr (fun q => ?_))
    constructor
    · intro kept
      obtain ⟨declared, named⟩ := List.mem_filter.mp kept
      exact List.mem_singleton.mpr (marked.same declared (by simpa using named))
    · intro here
      exact List.mem_singleton.mp here ▸ member
  have order : spec.params.Perm (spec.params.filter (fun q => decide (q.name ≠ p.name)) ++ [p]) := by
    have split := List.filter_append_perm (fun q : ParamSpec => decide (q.name ≠ p.name)) spec.params
    rw [alone] at split
    exact split.symm
  have ordered : ∀ query' : HashMap Str, (requestParts crates path query' spec.params).Perm
      (requestParts crates path query' (spec.params.filter (fun q => decide (q.name ≠ p.name))) ++
        requestParts crates path query' [p]) := by
    intro query'
    rw [requestParts, requestParts, requestParts, ← List.filterMap_append]
    exact order.filterMap _
  have own : ∀ query' raw, rawValue path query' p = some raw →
      Bind.coerce crates p raw = .ok (.text raw) →
      requestParts crates path query' [p] = [(p.name, raw)] := by
    intro query' raw given accepted
    simp [requestParts, canonText, given, marked.free.notEnum, accepted, Except.toOption,
      BindValue.canon]
  have others : requestParts crates path (query.insert p.name text)
        (spec.params.filter (fun q => decide (q.name ≠ p.name))) =
      requestParts crates path query (spec.params.filter (fun q => decide (q.name ≠ p.name))) := by
    refine List.filterMap_congr (fun q kept => ?_)
    have named : q.name ≠ p.name := by simpa using (List.mem_filter.mp kept).2
    simp only [canonText, rawValue_insert_ne named]
  obtain ⟨accepted, accepted'⟩ := marked.coerced resolved
  refine ⟨requestParts crates path query
    (spec.params.filter (fun q => decide (q.name ≠ p.name))), ?_, ?_, ?_⟩
  · intro named member
    obtain ⟨q, kept, recorded⟩ := List.mem_filterMap.mp member
    obtain ⟨declared, other⟩ := List.mem_filter.mp kept
    obtain ⟨t, found, rfl⟩ := Option.map_eq_some_iff.mp recorded
    have less := marked.greatest q declared (by simpa using other) (by simp [found])
    exact ⟨Or.inl less, Or.inl less⟩
  · rw [← own query _ marked.rawValue_self.1 accepted]
    exact ordered query
  · rw [← own _ _ marked.rawValue_self.2 accepted', ← others]
    exact ordered _

/-- The canonical text of the marked request is that of the cut one with the marker. -/
theorem MarkedLast.canon (marked : MarkedLast crates spec path query role p text)
    {bound' : Bound} (resolved : resolve crates spec path query = .ok bound)
    (resolved' : resolve crates spec path (query.insert p.name text) = .ok bound') :
    bound.canon = bound'.canon ++ marker role := by
  obtain ⟨others, below, order, order'⟩ := marked.parts resolved
  rw [resolve_canon resolved, resolve_canon resolved',
    insertionSort_last order (fun named member => (below named member).1),
    insertionSort_last order' (fun named member => (below named member).2),
    Joined.joined_append_value]

end Cut

/-- A request that does not elevate, and whose canonical text does not end with the
marker of the role, has another key than every request that elevates. A canonical text
that ends with the marker is the key of an elevated request as soon as it ends in a free
text: the request with the marker cut off that text resolves, and its elevated key is
the key of the marked request. -/
theorem elevated_keys_separate (world : World) (gen : Nat) (spec : EndpointSpec)
    (ordinary : Request) (bound : Bound)
    (notElevated : effectiveReadRole world spec ordinary = [])
    (resolved : resolveRequest world spec ordinary = some (.ok bound)) :
    (¬marker (Text.trim world.adminReadRole) <:+ bound.canon →
      ∀ elevated bound', effectiveReadRole world spec elevated ≠ [] →
        resolveRequest world spec elevated = some (.ok bound') →
        requestKey world gen spec elevated bound' ≠ requestKey world gen spec ordinary bound) ∧
    ∀ query p text, ownQuery world spec ordinary = some (.ok query) →
      MarkedLast world.crates spec (mapOf ordinary.pathParams) query
        (Text.trim world.adminReadRole) p text →
      ∃ bound', resolve world.crates spec (mapOf ordinary.pathParams)
          (query.insert p.name text) = .ok bound' ∧
        ∀ elevated, effectiveReadRole world spec elevated ≠ [] →
          requestKey world gen spec elevated bound' = requestKey world gen spec ordinary bound := by
  have role : ∀ request, effectiveReadRole world spec request ≠ [] →
      effectiveReadRole world spec request = Text.trim world.adminReadRole := by
    intro request elevates
    simp only [effectiveReadRole, adminReadElevation] at elevates ⊢
    split_ifs at elevates ⊢ with eligible
    · rfl
    · exact absurd rfl elevates
  have plain : requestKey world gen spec ordinary bound = ⟨spec.id, gen, bound.canon⟩ := by
    rw [requestKey, notElevated]
    rfl
  have lifted : ∀ elevated bound', effectiveReadRole world spec elevated ≠ [] →
      requestKey world gen spec elevated bound' =
        ⟨spec.id, gen, bound'.canon ++ marker (Text.trim world.adminReadRole)⟩ := by
    intro elevated bound' elevates
    rw [requestKey, keyCanon_elevated elevates, role elevated elevates]
  constructor
  · intro unmarked elevated bound' elevates _ same
    rw [plain, lifted elevated bound' elevates] at same
    exact unmarked ⟨bound'.canon, (CacheKey.mk.inj same).2.2⟩
  · intro query p text sent marked
    have own : resolve world.crates spec (mapOf ordinary.pathParams) query = .ok bound := by
      rw [resolveRequest, sent] at resolved
      exact Option.some.inj resolved
    obtain ⟨bound', resolved'⟩ := marked.resolves own
    refine ⟨bound', resolved', fun elevated elevates => ?_⟩
    rw [plain, lifted elevated bound' elevates, marked.canon own resolved']

/-- Runs of one box or of all, an oversight endpoint. -/
def cycles : EndpointSpec where
  id := "runtime.cycles".str
  path := "/runtime/cycles".str
  ttl := "30s".str
  sql := "SELECT ts FROM obs.cycles WHERE box = :box".str
  adminCrossTenant := true
  params := [{ name := "box".str, kind := .query, ty := "str".str }]

/-- A world with a read role for oversight. -/
def overseen : World :=
  { World.plain (fun _ _ => .ok []) with adminReadRole := "lqt_admin_read".str }

def byAdmin (query : Str) : Request where
  rawQuery := some query
  identity := some { sub := "root".str, role := "admin".str }

def byUser (query : Str) : Request where
  rawQuery := some query
  identity := some { sub := "eve".str, role := "user".str }

/-- The request of a user for a box has another key than that of an administrator for
the same box. -/
theorem cycles_keys_separate : ∃ bound bound',
    resolveRequest overseen cycles (byUser "box=b1".str) = some (.ok bound) ∧
      resolveRequest overseen cycles (byAdmin "box=b1".str) = some (.ok bound') ∧
      requestKey overseen 0 cycles (byAdmin "box=b1".str) bound' ≠
        requestKey overseen 0 cycles (byUser "box=b1".str) bound := by
  obtain ⟨bound, found⟩ := Option.isSome_iff_exists.mp
    (show (accepted overseen cycles (byUser "box=b1".str)).isSome = true by decide +kernel)
  obtain ⟨bound', found'⟩ := Option.isSome_iff_exists.mp
    (show (accepted overseen cycles (byAdmin "box=b1".str)).isSome = true by decide +kernel)
  have resolved := resolveRequest_of_accepted found
  have resolved' := resolveRequest_of_accepted found'
  have text : (accepted overseen cycles (byUser "box=b1".str)).all
      (fun b => decide ¬marker (Text.trim overseen.adminReadRole) <:+ b.canon) = true := by
    decide +kernel
  have unmarked : ¬marker (Text.trim overseen.adminReadRole) <:+ bound.canon := by
    rw [found] at text
    exact of_decide_eq_true text
  exact ⟨bound, bound', resolved, resolved',
    (elevated_keys_separate overseen 0 cycles (byUser "box=b1".str) bound (by decide +kernel)
      resolved).1 unmarked _ bound' (by decide +kernel) resolved'⟩

/-- A user that appends the marker to the box has the key of the administrator. -/
theorem cycles_keys_collide : ∃ bound bound',
    resolveRequest overseen cycles (byUser "box=b1%01admin_read=lqt_admin_read".str) =
        some (.ok bound) ∧
      resolveRequest overseen cycles (byAdmin "box=b1".str) = some (.ok bound') ∧
      effectiveReadRole overseen cycles (byUser "box=b1%01admin_read=lqt_admin_read".str) = [] ∧
      effectiveReadRole overseen cycles (byAdmin "box=b1".str) ≠ [] ∧
      ∀ gen, requestKey overseen gen cycles (byAdmin "box=b1".str) bound' =
        requestKey overseen gen cycles (byUser "box=b1%01admin_read=lqt_admin_read".str) bound := by
  obtain ⟨bound, found⟩ := Option.isSome_iff_exists.mp
    (show (accepted overseen cycles
      (byUser "box=b1%01admin_read=lqt_admin_read".str)).isSome = true by decide +kernel)
  obtain ⟨bound', found'⟩ := Option.isSome_iff_exists.mp
    (show (accepted overseen cycles (byAdmin "box=b1".str)).isSome = true by decide +kernel)
  have canon : (accepted overseen cycles
      (byUser "box=b1%01admin_read=lqt_admin_read".str)).map Bound.canon =
      some ("box=b1".str ++ marker "lqt_admin_read".str) := by decide +kernel
  have canon' : (accepted overseen cycles (byAdmin "box=b1".str)).map Bound.canon =
      some "box=b1".str := by decide +kernel
  have user : effectiveReadRole overseen cycles
      (byUser "box=b1%01admin_read=lqt_admin_read".str) = [] := by decide +kernel
  have admin : effectiveReadRole overseen cycles (byAdmin "box=b1".str) =
      "lqt_admin_read".str := by decide +kernel
  rw [found, Option.map_some, Option.some.injEq] at canon
  rw [found', Option.map_some, Option.some.injEq] at canon'
  refine ⟨bound, bound', resolveRequest_of_accepted found, resolveRequest_of_accepted found',
    user, by rw [admin]; decide, fun gen => ?_⟩
  rw [requestKey, requestKey, user, admin, canon, canon']
  rfl

end LumidPlatform.Read.Elevation
