import Mathlib.Data.Int.Order.Units
import Mathlib.Data.Rat.Floor
import LumidPlatform.Crates
import LumidPlatform.Lib.Tallies

/-!
# Footprints of a plan

The answer of the planner is a tree. Each node that names a relation or an index adds its
weight, the blocks that it touched, to that name; relations and indexes are counted apart and
merged in the end. The amounts are machine integers, which wrap.
-/

namespace LumidPlatform.Retrieve.Profile

open Tallies

/-- Footprints wrap, so sums of them are those of a commutative monoid. -/
instance wrappingSum : AddCommMonoid Int64 where
  add_assoc := Int64.add_assoc
  zero_add := Int64.zero_add
  add_zero := Int64.add_zero
  add_comm := Int64.add_comm
  nsmul := nsmulRec

/-- `Value::as_f64`. -/
def asF64? : Json → Option F64
  | .number (.int n) => some (F64.ofInt n)
  | .number (.float x) => some x
  | _ => none

/-- `as i64` of a float: without its fraction, and the nearest end where it does not fit. -/
def truncated (x : F64) : Int64 :=
  if x.isNan then 0
  else
    let whole : Int := if 0 ≤ x.value then ⌊x.value⌋ else ⌈x.value⌉
    .ofInt (max (-2 ^ 63) (min (2 ^ 63 - 1) whole))

/-! ## Nodes -/

/-- `Shared Hit Blocks + Shared Read Blocks`, or 1. -/
def weight (node : JsonMap) : Int64 :=
  let hit := ((node.get "Shared Hit Blocks".str).bind Json.asI64?).getD 0
  let read := ((node.get "Shared Read Blocks".str).bind Json.asI64?).getD 0
  let footprint := hit + read
  if footprint ≤ 0 then 1 else footprint

/-- A name under a field, if it is not empty. -/
def named (field : Str) (node : JsonMap) : Option Str :=
  ((node.get field).bind Json.asStr?).filter (fun name => !name.isEmpty)

/-- The maps of the relations and of the indexes. -/
structure Footprints where
  relations : Tally Str Int64 := fun _ => none
  indexes : Tally Str Int64 := fun _ => none

/-- What one node adds. -/
def Footprints.touch (maps : Footprints) (node : JsonMap) : Footprints where
  relations :=
    match named "Relation Name".str node with
    | some relation => maps.relations.add relation (weight node)
    | none => maps.relations
  indexes :=
    match named "Index Name".str node with
    | some index => maps.indexes.add index (weight node)
    | none => maps.indexes

mutual

/-- `aggregate_plan_footprints`. -/
def aggregate (maps : Footprints) : Json → Footprints
  | .object members => aggregatePlans (maps.touch members) members
  | _ => maps

/-- The children are those under `Plans`. -/
def aggregatePlans (maps : Footprints) : List (Str × Json) → Footprints
  | [] => maps
  | (field, value) :: rest =>
    if field = "Plans".str then aggregateChildren maps value else aggregatePlans maps rest

/-- The children of a node are visited if they are a list. -/
def aggregateChildren (maps : Footprints) : Json → Footprints
  | .array children => aggregateEach maps children
  | _ => maps

/-- They are visited one after the other. -/
def aggregateEach (maps : Footprints) : List Json → Footprints
  | [] => maps
  | child :: rest => aggregateEach (aggregate maps child) rest

end

/-- `parse_explain_json`: the cost, the rows, and the footprints by name. -/
def parseExplainJson (explainJson : Json) : Option (F64 × Int64 × Tally Str Int64) := do
  let arr ← explainJson.asArray?
  let top ← arr.head?.bind Json.asObject?
  let plan ← (top.get "Plan".str).bind Json.asObject?
  let rawCost ← (plan.get "Total Cost".str).bind asF64?
  let planRows ← plan.get "Plan Rows".str
  let estimatedRows := planRows.asI64?.getD (((asF64? planRows).map truncated).getD 0)
  let maps := aggregate {} (.object plan)
  some (rawCost, estimatedRows, maps.relations.merge maps.indexes)

/-! ## The nodes of a tree -/

mutual

/-- The nodes of a plan, each before its children. -/
def nodes : Json → List JsonMap
  | .object members => members :: nodesOfPlans members
  | _ => []

/-- The nodes under the field of the children. -/
def nodesOfPlans : List (Str × Json) → List JsonMap
  | [] => []
  | (field, value) :: rest =>
    if field = "Plans".str then nodesOfChildren value else nodesOfPlans rest

/-- The nodes below the children, if these are a list. -/
def nodesOfChildren : Json → List JsonMap
  | .array children => nodesOfEach children
  | _ => []

/-- The nodes below each child, one child after the other. -/
def nodesOfEach : List Json → List JsonMap
  | [] => []
  | child :: rest => nodes child ++ nodesOfEach rest

end

/-- What the nodes add to the names under a field. -/
def entries (field : Str) (plan : List JsonMap) : List (Str × Int64) :=
  plan.filterMap (fun node => (named field node).map (fun name => (name, weight node)))

/-- What the nodes add to names. -/
def touches (plan : List JsonMap) : List (Str × Int64) :=
  entries "Relation Name".str plan ++ entries "Index Name".str plan

/-- The entries of a plan, those of its first node apart. -/
theorem entries_cons (field : Str) (node : JsonMap) (plan : List JsonMap) :
    entries field (node :: plan) =
      ((named field node).map (fun name => (name, weight node))).toList ++ entries field plan := by
  rw [entries, List.filterMap_cons]
  cases named field node with
  | none => rfl
  | some name => rfl

/-- Touching the nodes of a plan records their entries. -/
theorem touch_foldl (maps : Footprints) (plan : List JsonMap) :
    plan.foldl Footprints.touch maps =
      ⟨maps.relations.record (entries "Relation Name".str plan),
        maps.indexes.record (entries "Index Name".str plan)⟩ := by
  induction plan generalizing maps with
  | nil => rfl
  | cons node rest inductionHypothesis =>
    rw [List.foldl_cons, inductionHypothesis, Footprints.touch, entries_cons, entries_cons]
    cases named "Relation Name".str node with
    | none =>
      cases named "Index Name".str node with
      | none => rfl
      | some index => rfl
    | some relation =>
      cases named "Index Name".str node with
      | none => rfl
      | some index => rfl

mutual

/-- The walk takes the nodes in order. -/
theorem aggregate_nodes (maps : Footprints) : (plan : Json) →
    aggregate maps plan = (nodes plan).foldl Footprints.touch maps
  | .object members => by
    rw [aggregate, nodes, List.foldl_cons, aggregatePlans_nodes]
  | .null | .bool _ | .number _ | .string _ | .array _ => by simp [aggregate, nodes]

/-- The recursion of the code visits the nodes of the plan in order, by induction on the plan. -/
theorem aggregatePlans_nodes (maps : Footprints) : (members : List (Str × Json)) →
    aggregatePlans maps members = (nodesOfPlans members).foldl Footprints.touch maps
  | [] => by rw [aggregatePlans, nodesOfPlans, List.foldl_nil]
  | (field, value) :: rest => by
    rw [aggregatePlans, nodesOfPlans]
    split_ifs
    · exact aggregateChildren_nodes maps value
    · exact aggregatePlans_nodes maps rest

/-- The same for the children of a node. -/
theorem aggregateChildren_nodes (maps : Footprints) : (value : Json) →
    aggregateChildren maps value = (nodesOfChildren value).foldl Footprints.touch maps
  | .array children => by
    rw [aggregateChildren, nodesOfChildren, aggregateEach_nodes]
  | .null | .bool _ | .number _ | .string _ | .object _ => by
    simp [aggregateChildren, nodesOfChildren]

/-- The same for a list of children, by induction on it. -/
theorem aggregateEach_nodes (maps : Footprints) : (children : List Json) →
    aggregateEach maps children = (nodesOfEach children).foldl Footprints.touch maps
  | [] => by rw [aggregateEach, nodesOfEach, List.foldl_nil]
  | child :: rest => by
    rw [aggregateEach, nodesOfEach, List.foldl_append, aggregate_nodes, aggregateEach_nodes]

end

/-! ## The answer -/

/-- The plan that an answer begins with. -/
def planOf (explainJson : Json) : Option Json :=
  match explainJson with
  | .array (.object top :: _) => JsonMap.get top "Plan".str
  | _ => none

/-- What is read off an answer are the footprints of its plan. -/
theorem parseExplainJson_some {explainJson : Json} {cost : F64} {rows : Int64}
    {footprints : Tally Str Int64}
    (parsed : parseExplainJson explainJson = some (cost, rows, footprints)) :
    ∃ plan, planOf explainJson = some plan ∧ footprints = tallied (touches (nodes plan)) := by
  simp only [parseExplainJson, Option.bind_eq_bind, Option.bind_eq_some_iff] at parsed
  obtain ⟨arr, isArray, top, ⟨first, head, isTop⟩, plan, ⟨value, found, isPlan⟩, _, _, _, _,
    answer⟩ := parsed
  have read {j : Json} {members : JsonMap} (isObject : j.asObject? = some members) :
      j = .object members := by
    cases j with
    | object own => exact congrArg Json.object (Option.some.inj isObject)
    | null | bool | number | string | array => cases isObject
  have array : explainJson = .array arr := by
    cases explainJson with
    | array own => exact congrArg Json.array (Option.some.inj isArray)
    | null | bool | number | string | object => cases isArray
  obtain rfl := read isTop
  obtain rfl := read isPlan
  refine ⟨.object plan, ?_, ?_⟩
  · cases arr with
    | nil => cases head
    | cons own tail =>
      obtain rfl := Option.some.inj head
      rw [array]
      exact found
  · have merged := (congrArg (fun result => result.2.2) (Option.some.inj answer)).symm
    rw [aggregate_nodes, touch_foldl, record_empty, record_empty, merge_tallied] at merged
    exact merged

/-! ## Amounts -/

/-- A node names a relation or an index. -/
def Names (name : Str) (node : JsonMap) : Prop :=
  named "Relation Name".str node = some name ∨ named "Index Name".str node = some name

/-- What the nodes add to one name. -/
def amounts (name : Str) (plan : List JsonMap) : List Int64 :=
  ((touches plan).filter (fun entry => entry.1 = name)).map Prod.snd

/-- A name has an entry if a node has it. -/
theorem mem_entries {field name : Str} {plan : List JsonMap} :
    name ∈ (entries field plan).map Prod.fst ↔ ∃ node ∈ plan, named field node = some name := by
  induction plan with
  | nil => simp [entries]
  | cons node rest inductionHypothesis =>
    rw [entries_cons, List.map_append, List.mem_append, inductionHypothesis]
    cases found : named field node with
    | none => simp [found]
    | some own => simp [found, eq_comm]

/-- The names that are touched are those that a node has. -/
theorem mem_touches {name : Str} {plan : List JsonMap} :
    name ∈ (touches plan).map Prod.fst ↔ ∃ node ∈ plan, Names name node := by
  rw [touches, List.map_append, List.mem_append, mem_entries, mem_entries]
  constructor
  · rintro (⟨node, member, found⟩ | ⟨node, member, found⟩)
    · exact ⟨node, member, Or.inl found⟩
    · exact ⟨node, member, Or.inr found⟩
  · rintro ⟨node, member, found | found⟩
    · exact Or.inl ⟨node, member, found⟩
    · exact Or.inr ⟨node, member, found⟩

/-- The order of the nodes does not matter for what is touched. -/
theorem touches_perm {plan other : List JsonMap} (same : plan.Perm other) :
    (touches plan).Perm (touches other) :=
  (same.filterMap _).append (same.filterMap _)

/-- Every node weighs at least one. -/
theorem one_le_weight (node : JsonMap) : 1 ≤ (weight node).toInt := by
  rw [weight]
  split_ifs with low
  · decide
  · have positive := Int64.not_le.mp low
    rw [Int64.lt_iff_toInt_lt] at positive
    have zero : (0 : Int64).toInt = 0 := by decide
    omega

/-- Each node adds at least one. -/
theorem one_le_amounts {name : Str} {plan : List JsonMap} {amount : Int64}
    (member : amount ∈ amounts name plan) : 1 ≤ amount.toInt := by
  obtain ⟨entry, inTouches, rfl⟩ := List.mem_map.mp member
  rcases List.mem_append.mp (List.mem_filter.mp inTouches).1 with inEntries | inEntries
  · obtain ⟨node, -, found⟩ := List.mem_filterMap.mp inEntries
    obtain ⟨own, -, rfl⟩ := Option.map_eq_some_iff.mp found
    exact one_le_weight node
  · obtain ⟨node, -, found⟩ := List.mem_filterMap.mp inEntries
    obtain ⟨own, -, rfl⟩ := Option.map_eq_some_iff.mp found
    exact one_le_weight node

/-- A sum that fits does not wrap. -/
theorem toInt_sum {amounts : List Int64} (positive : ∀ amount ∈ amounts, 1 ≤ amount.toInt)
    (fits : (amounts.map Int64.toInt).sum < 2 ^ 63) :
    amounts.sum.toInt = (amounts.map Int64.toInt).sum ∧
      (amounts.length : Int) ≤ amounts.sum.toInt := by
  induction amounts with
  | nil => exact ⟨by decide, by decide⟩
  | cons amount rest inductionHypothesis =>
    have first := positive amount List.mem_cons_self
    rw [List.map_cons, List.sum_cons] at fits
    obtain ⟨same, long⟩ := inductionHypothesis
      (fun later member => positive later (List.mem_cons_of_mem _ member)) (by omega)
    have whole : (amount :: rest).sum.toInt = amount.toInt + rest.sum.toInt := by
      rw [List.sum_cons, Int64.toInt_add]
      apply Int.bmod_eq_of_le
      · omega
      · omega
    rw [whole, List.map_cons, List.sum_cons, List.length_cons]
    exact ⟨by omega, by omega⟩

/-- The footprint of a name is the sum of what the nodes of the plan that name it weigh, in
whatever order they come. A name that no node has has none, and every other at least one for
each mention unless the sum leaves the range. -/
theorem footprints_exact {explainJson : Json} {cost : F64} {rows : Int64}
    {footprints : Tally Str Int64}
    (parsed : parseExplainJson explainJson = some (cost, rows, footprints)) :
    ∃ plan, planOf explainJson = some plan ∧
      (∀ other, (nodes other).Perm (nodes plan) →
        footprints = tallied (touches (nodes other))) ∧
      ∀ name, (footprints name = none ↔ ∀ node ∈ nodes plan, ¬Names name node) ∧
        ∀ total, footprints name = some total → total = (amounts name (nodes plan)).sum ∧
          (((amounts name (nodes plan)).map Int64.toInt).sum < 2 ^ 63 →
            ((amounts name (nodes plan)).length : Int) ≤ total.toInt) := by
  obtain ⟨plan, begins, rfl⟩ := parseExplainJson_some parsed
  refine ⟨plan, begins, fun other same => (tallied_perm (touches_perm same)).symm,
    fun name => ?_⟩
  by_cases touched : name ∈ (touches (nodes plan)).map Prod.fst
  · rw [tallied, if_pos touched]
    obtain ⟨node, member, found⟩ := mem_touches.mp touched
    refine ⟨iff_of_false (Option.some_ne_none _) (fun none => none node member found), ?_⟩
    rintro total held
    obtain rfl := Option.some.inj held
    exact ⟨rfl, fun fits => (toInt_sum (fun amount => one_le_amounts) fits).2⟩
  · rw [tallied, if_neg touched]
    refine ⟨iff_of_true rfl (fun node member found => ?_), fun total held => by cases held⟩
    exact touched (mem_touches.mpr ⟨node, member, found⟩)

/-- A scan of a table under a sort, by an index. -/
def sortedScan : Json :=
  .array [.object [("Plan".str, .object [("Total Cost".str, .number (.int 40)),
    ("Plan Rows".str, .number (.int 3)),
    ("Plans".str, .array [.object [("Relation Name".str, .string "quotes".str),
      ("Index Name".str, .string "quotes_ts".str), ("Shared Hit Blocks".str, .number (.int 7)),
      ("Shared Read Blocks".str, .number (.int 2))]])])]]

/-- A plan in which an index is scanned under a sort. -/
theorem sortedScan_footprints : ∃ cost rows footprints plan,
    parseExplainJson sortedScan = some (cost, rows, footprints) ∧
      planOf sortedScan = some plan ∧ footprints "quotes_ts".str = some 9 ∧
      (footprints "trades".str = none ↔ ∀ node ∈ nodes plan, ¬Names "trades".str node) := by
  have read : ((parseExplainJson sortedScan).map (fun answer => answer.2.2 "quotes_ts".str)) =
      some (some 9) := by
    decide +kernel
  obtain ⟨⟨cost, rows, footprints⟩, parsed, nine⟩ := Option.map_eq_some_iff.mp read
  obtain ⟨plan, begins, -, each⟩ := footprints_exact parsed
  exact ⟨cost, rows, footprints, plan, parsed, begins, nine, (each "trades".str).1⟩

end LumidPlatform.Retrieve.Profile
