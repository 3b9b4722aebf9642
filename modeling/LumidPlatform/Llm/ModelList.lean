import LumidPlatform.Lib.FirstOffers
import LumidPlatform.Llm.Metered

/-!
# The list of models

`GET /v1/models` gathers the models of all backends, the primary before the others and
OpenRouter last. An id is listed once, as the first that answered for it describes it. Of the
models of OpenRouter those are listed that the operator mapped, each under the id that a client
has to send.
-/

namespace LumidPlatform.Llm.ModelList

open FirstOffers
open LumidPlatform.Read.Exec (Peer)

/-- What a base answers: the error is that of the connection or of the JSON. -/
abbrev Leg := Str × Except Str Json

/-- The distinct addresses, the primary first. -/
def bases (deployment : Deployment) : List Str :=
  let primary := Text.trimEndMatches '/' deployment.settings.llmBackendUrl
  let found := deployment.pool.all.foldl
    (fun found handle => if found.contains handle.url then found else found ++ [handle.url])
    (if primary.isEmpty then [] else [primary])
  let openrouter := Text.trimEndMatches '/' deployment.pool.openrouterUrl
  if !deployment.pool.openrouterUrl.isEmpty && !found.contains openrouter then
    found ++ [openrouter]
  else found

/-- `or_reverse`, of the entries of the map in the order of its iteration; the last one for an id
of OpenRouter stays. -/
def orReverse (entries : List (Str × Str)) (raw : Str) : Option Str :=
  (entries.reverse.find? (fun entry => entry.2 = raw)).map Prod.fst

/-- The id that a backend gives a model, empty without one. -/
def rawId (m : Json) : Str := ((member m "id".str).bind Json.asStr?).getD []

/-- `as_object_mut` and `insert`. -/
def setMember (m : Json) (key : Str) (value : Json) : Json :=
  match m with
  | .object members => .object (JsonMap.insert key value members)
  | other => other

/-- Members that are null count as absent. -/
def isNull : Json → Bool
  | .null => true
  | _ => false

/-- The window of a model under one name. -/
def withWindow (m : Json) : Json :=
  if (member m "max_model_len".str).all isNull then
    match ((member m "meta".str).bind (fun meta' => member meta' "n_ctx".str)).bind Json.asI64? with
    | some n => setMember m "max_model_len".str (.number (.int n.toInt))
    | none => m
  else m

/-- `data` and `seen`. -/
structure Gathered where
  data : List Json := []
  seen : List Str := []

section

variable (reverse : Str → Option Str) (orBase : Str)

/-- The leg of OpenRouter is known by its base address. -/
def isOr (base : Str) : Bool := !orBase.isEmpty && base == orBase

/-- The id that a model of a leg is listed under, if it is. -/
def listedId (ofOr : Bool) (m : Json) : Option Str :=
  if ofOr then reverse (rawId m) else some (rawId m)

/-- How a model is listed. -/
def described (ofOr : Bool) (id : Str) (m : Json) : Json :=
  withWindow (if ofOr then setMember m "id".str (.string id) else m)

/-- One model of an answer: it is left out if it is not to be shown or if its id was seen. -/
def addModel (ofOr : Bool) (gathered : Gathered) (m : Json) : Gathered :=
  match listedId reverse ofOr m with
  | none => gathered
  | some id =>
    if id ∈ gathered.seen then gathered
    else ⟨gathered.data ++ [described ofOr id m], gathered.seen ++ [id]⟩

/-- The models of an answer. -/
def models (leg : Leg) : List Json :=
  match leg.2 with
  | .error _ => []
  | .ok v => ((member v "data".str).bind Json.asArray?).getD []

/-- The models of one leg, in the order of its answer. -/
def addLeg (gathered : Gathered) (leg : Leg) : Gathered :=
  (models leg).foldl (addModel reverse (isOr orBase leg.1)) gathered

end

/-- What `list_models` comes to. -/
inductive Listing where
  | refused (error : ApiError)
  | forwarded (peer : Peer)
  | proxied (backends : List BackendHandle)
  | merged (data : List Json)

/-- `list_models`, where the map is iterated in some order and every base answers somehow. -/
def listModels (deployment : Deployment) (loads : Loads) (entries : List (Str × Str))
    (answer : Str → Except Str Json) : Listing :=
  match federationPeer deployment with
  | .error e => .refused e
  | .ok (some peer) => .forwarded peer
  | .ok none =>
    match bases deployment with
    | [] => .refused (.unavailable "LLM backend not configured".str)
    | [_] => .proxied (deployment.pool.backendsFor loads none)
    | all =>
      let orBase := Text.trimEndMatches '/' deployment.pool.openrouterUrl
      .merged ((all.map (fun base => (base, answer base))).foldl
        (addLeg (orReverse entries) orBase) {}).data

/-! ## Offers -/

section

variable {reverse : Str → Option Str} {orBase : Str}

/-- What a model is offered as, with the id that it would be listed under. -/
def offer (reverse : Str → Option Str) (ofOr : Bool) (m : Json) : Option (Str × Json) :=
  (listedId reverse ofOr m).map (fun id => (id, described ofOr id m))

/-- What a leg offers. -/
def offers (reverse : Str → Option Str) (orBase : Str) (leg : Leg) : List (Str × Json) :=
  (models leg).filterMap (offer reverse (isOr orBase leg.1))

/-- What is gathered are the first offers. -/
def Gathers (gathered : Gathered) (offered : List (Str × Json)) : Prop :=
  gathered.data = (firsts offered).map Prod.snd ∧ gathered.seen = (firsts offered).map Prod.fst

/-- One more model keeps what is gathered the first offers of what was offered. -/
theorem Gathers.addModel {ofOr : Bool} {gathered : Gathered} {offered : List (Str × Json)}
    (gathers : Gathers gathered offered) (m : Json) :
    Gathers (ModelList.addModel reverse ofOr gathered m)
      (offered ++ (offer reverse ofOr m).toList) := by
  rw [ModelList.addModel, offer]
  cases listedId reverse ofOr m with
  | none => simpa using gathers
  | some id =>
    rw [Option.map_some, Option.toList_some]
    obtain ⟨data, seen⟩ := gathers
    dsimp only
    rw [Gathers, firsts_append, take, ← seen]
    split_ifs with known
    · exact ⟨data, seen⟩
    · rw [data, seen, List.map_append, List.map_append]
      exact ⟨rfl, rfl⟩

/-- The same for all models of a leg, in the order of its answer. -/
theorem Gathers.addModels {ofOr : Bool} (ms : List Json) {gathered : Gathered}
    {offered : List (Str × Json)} (gathers : Gathers gathered offered) :
    Gathers (ms.foldl (ModelList.addModel reverse ofOr) gathered)
      (offered ++ ms.filterMap (offer reverse ofOr)) := by
  induction ms generalizing gathered offered with
  | nil => simpa using gathers
  | cons m rest inductionHypothesis =>
    have first : Gathers (ModelList.addModel reverse ofOr gathered m)
        (offered ++ (offer reverse ofOr m).toList) := gathers.addModel m
    have more := inductionHypothesis first
    rw [List.append_assoc] at more
    have together : (offer reverse ofOr m).toList ++ rest.filterMap (offer reverse ofOr) =
        (m :: rest).filterMap (offer reverse ofOr) := by
      rw [List.filterMap_cons]
      cases offer reverse ofOr m <;> rfl
    rw [together] at more
    exact more

/-- The same for all legs, in the order of the bases. -/
theorem Gathers.addLegs (legs : List Leg) {gathered : Gathered} {offered : List (Str × Json)}
    (gathers : Gathers gathered offered) :
    Gathers (legs.foldl (addLeg reverse orBase) gathered)
      (offered ++ legs.flatMap (offers reverse orBase)) := by
  induction legs generalizing gathered offered with
  | nil => simpa using gathers
  | cons leg rest inductionHypothesis =>
    have more : Gathers (addLeg reverse orBase gathered leg)
        (offered ++ offers reverse orBase leg) := gathers.addModels (models leg)
    rw [List.flatMap_cons, ← List.append_assoc]
    exact inductionHypothesis more

/-- The list is the first offer of each id, in the order of the legs. -/
theorem gathered_eq (legs : List Leg) :
    (legs.foldl (addLeg reverse orBase) {}).data =
      (firsts (legs.flatMap (offers reverse orBase))).map Prod.snd := by
  have gathers : Gathers (legs.foldl (addLeg reverse orBase) {})
      ([] ++ legs.flatMap (offers reverse orBase)) := Gathers.addLegs legs ⟨rfl, rfl⟩
  exact gathers.1

end

/-! ## Ids -/

/-- A member that is set leaves the others alone. -/
theorem get_insert_of_ne (members : JsonMap) {key other : Str} (value : Json)
    (differs : other ≠ key) :
    JsonMap.get (JsonMap.insert key value members) other = JsonMap.get members other := by
  rw [JsonMap.get, JsonMap.get]
  induction members with
  | nil =>
    rw [JsonMap.insert, Assoc.lookup_of_ne differs]
  | cons entry rest inductionHypothesis =>
    obtain ⟨name, old⟩ := entry
    rw [JsonMap.insert]
    split_ifs with same
    · subst same
      rw [Assoc.lookup_of_ne differs, Assoc.lookup_of_ne differs]
    · rw [List.lookup_cons, List.lookup_cons, inductionHypothesis]

/-- The same for any JSON value. -/
theorem member_setMember {m : Json} {key other : Str} {value : Json} (differs : other ≠ key) :
    member (setMember m key value) other = member m other := by
  cases m with
  | object members => exact get_insert_of_ne members value differs
  | null | bool | number | string | array => rfl

/-- Filling in the window keeps the id. -/
theorem rawId_withWindow (m : Json) : rawId (withWindow m) = rawId m := by
  have differs : "id".str ≠ "max_model_len".str := by decide
  rw [withWindow]
  split_ifs
  · split
    · rw [rawId, member_setMember differs, rawId]
    · rfl
  · rfl

/-- A model with an id is an object. -/
theorem rawId_setMember {m : Json} (some : rawId m ≠ []) (id : Str) :
    rawId (setMember m "id".str (.string id)) = id := by
  cases m with
  | object members =>
    rw [rawId, setMember, member, Json.asObject?, Option.bind_some, Metered.get_insert]
    rfl
  | null | bool | number | string | array => exact absurd rfl some

/-- What is found under a key was a pair. -/
theorem lookup_mapOf_mem {V : Type} {pairs : List (Str × V)} {key : Str} {value : V}
    (found : (mapOf pairs).lookup key = some value) : (key, value) ∈ pairs := by
  induction pairs using List.reverseRecOn with
  | nil => cases found
  | append_singleton pairs pair inductionHypothesis =>
    have inserted : mapOf (pairs ++ [pair]) = (mapOf pairs).insert pair.1 pair.2 := by
      rw [mapOf, List.foldl_append]
      rfl
    rw [inserted] at found
    by_cases same : key = pair.1
    · subst same
      rw [AList.lookup_insert] at found
      obtain rfl := Option.some.inj found
      exact List.mem_append_right _ (List.mem_singleton_self _)
    · rw [AList.lookup_insert_ne same] at found
      exact List.mem_append_left _ (inductionHypothesis found)

/-- No model is mapped to an empty id. -/
theorem mapped_ne_nil {raw key mapped : Str}
    (found : (parseModelMap raw).lookup key = some mapped) : mapped ≠ [] := by
  have pair := (List.mem_filter.mp (lookup_mapOf_mem found)).2
  rintro rfl
  simp at pair

section

variable {deployment : Deployment} {entries : List (Str × Str)}

/-- The entries of the map, in some order. -/
def Iterated (deployment : Deployment) (entries : List (Str × Str)) : Prop :=
  ∀ id mapped, (id, mapped) ∈ entries ↔
    deployment.settings.llmOpenrouterModelMap.lookup id = some mapped

/-- The reverse map gives an id that is mapped to the model. -/
theorem orReverse_some (iterated : Iterated deployment entries) {raw id : Str}
    (found : orReverse entries raw = some id) :
    deployment.settings.llmOpenrouterModelMap.lookup id = some raw := by
  obtain ⟨entry, last, rfl⟩ := Option.map_eq_some_iff.mp found
  have same : entry.2 = raw := by simpa using List.find?_some last
  have member := List.mem_reverse.mp (List.mem_of_find?_eq_some last)
  rw [← same]
  exact (iterated entry.1 entry.2).mp member

/-- It gives one for every model that an id is mapped to. -/
theorem orReverse_isSome (iterated : Iterated deployment entries) {raw id : Str}
    (mapped : deployment.settings.llmOpenrouterModelMap.lookup id = some raw) :
    ∃ other, orReverse entries raw = some other := by
  have member := (iterated id raw).mpr mapped
  cases found : entries.reverse.find? (fun entry => entry.2 = raw) with
  | some entry => exact ⟨entry.1, by rw [orReverse, found, Option.map_some]⟩
  | none =>
    have none := List.find?_eq_none.mp found (id, raw) (List.mem_reverse.mpr member)
    simp at none

/-- The id that is sent is the one that the offer is listed under. -/
theorem rawId_offer (iterated : Iterated deployment entries) {ofOr : Bool} {m shown : Json}
    {id : Str} (offered : offer (orReverse entries) ofOr m = some (id, shown)) :
    rawId shown = id := by
  obtain ⟨listed, under, same⟩ := Option.map_eq_some_iff.mp offered
  obtain ⟨rfl, rfl⟩ := Prod.mk.inj same
  rw [described, rawId_withWindow]
  cases ofOr with
  | false => exact Option.some.inj under
  | true => exact rawId_setMember (mapped_ne_nil (orReverse_some iterated under)) listed

/-! ## What is listed -/

/-- The backends of a model leave it to OpenRouter: all are full, or all are down. -/
def Spilled (deployment : Deployment) (loads : Loads) (backends : List BackendHandle) : Prop :=
  (0 < deployment.settings.llmBackendMaxConcurrency ∧
    ∀ handle ∈ backends, handle.atRoof (loads handle.url) = true) ∨
  ∀ handle ∈ backends, (loads handle.url).healthy = false

/-- A model of OpenRouter as it is listed. The map and the rewriting of a request send its id back
to the model that is described. An id of Claude is refused all the same; another is resolved to
OpenRouter for those who may use metered models, and to the backends first where some serve it. -/
structure Mapped (deployment : Deployment) (m shown : Json) : Prop where
  entry : deployment.settings.llmOpenrouterModelMap.lookup (rawId shown) = some (rawId m)
  described : shown = withWindow (setMember m "id".str (.string (rawId shown)))
  forwarded : ∀ body, modelOf body = some (rawId shown) →
    member (rewriteModelForOpenrouter deployment.settings body) "model".str =
      some (.string (rawId m))
  claude : isClaude (rawId shown) = true → ∀ loads role short, ∃ reason,
    resolve deployment loads (some (rawId shown)) role short = .error (.unavailable reason)
  metered : isClaude (rawId shown) = false →
    deployment.pool.handlesOf (some (rawId shown)) = [] → ∀ loads role short,
      (roleMayUseMeteredOpenrouterModel role = true →
        resolve deployment loads (some (rawId shown)) role short = .ok none) ∧
      (roleMayUseMeteredOpenrouterModel role = false → ∃ reason,
        resolve deployment loads (some (rawId shown)) role short = .error (.forbidden reason))
  backed : isClaude (rawId shown) = false →
    deployment.pool.handlesOf (some (rawId shown)) ≠ [] → ∀ loads role short,
      let backends := deployment.pool.backendsForClass loads (some (rawId shown)) short
      (Spilled deployment loads backends →
        resolve deployment loads (some (rawId shown)) role short = .ok none) ∧
      (¬Spilled deployment loads backends →
        resolve deployment loads (some (rawId shown)) role short = .ok (some backends))

/-- A model of a backend as it is listed. -/
def Own (m shown : Json) : Prop := rawId m = rawId shown ∧ shown = withWindow m

/-- A mapped model is served where OpenRouter is configured. -/
theorem serves_of_mapped {id mapped : Str} (configured : deployment.pool.openrouterUrl ≠ [])
    (entry : deployment.settings.llmOpenrouterModelMap.lookup id = some mapped) :
    openrouterServes deployment.settings.llmOpenrouterModelMap
      deployment.pool.openrouterUrl id = true := by
  rw [openrouterServes, Bool.and_eq_true, decide_eq_true_eq, ← AList.lookup_isSome, entry]
  exact ⟨by simpa using configured, rfl⟩

/-- No resolution succeeds for a Claude model. -/
theorem resolve_claude {loads : Loads} {id role : Str} {short : Bool}
    (claude : isClaude id = true) :
    ∃ reason, resolve deployment loads (some id) role short = .error (.unavailable reason) := by
  rw [resolve, Option.any_some, if_pos claude]
  exact ⟨_, rfl⟩

section

variable {loads : Loads} {id role : Str} {short : Bool} (other : isClaude id = false)
  (serves : openrouterServes deployment.settings.llmOpenrouterModelMap
    deployment.pool.openrouterUrl id = true)

include other serves

/-- What no backend serves is for those who may use metered models. -/
theorem resolve_metered (alone : deployment.pool.handlesOf (some id) = []) :
    (roleMayUseMeteredOpenrouterModel role = true →
      resolve deployment loads (some id) role short = .ok none) ∧
    (roleMayUseMeteredOpenrouterModel role = false → ∃ reason,
      resolve deployment loads (some id) role short = .error (.forbidden reason)) := by
  have none : (deployment.pool.backendsForClass loads (some id) short).isEmpty = true :=
    Metered.isEmpty_iff_handlesOf.mpr alone
  rw [resolve, Option.any_some, if_neg (by simp [other])]
  dsimp only
  rw [if_neg (by simp [none]), if_pos serves]
  refine ⟨fun may => ?_, fun may => ?_⟩
  · rw [if_neg (by simp [may])]
  · rw [if_pos (by simp [may])]
    exact ⟨_, rfl⟩

/-- What backends serve goes to OpenRouter where they are all full or all down. -/
theorem resolve_backed (present : deployment.pool.handlesOf (some id) ≠ []) :
    (Spilled deployment loads (deployment.pool.backendsForClass loads (some id) short) →
      resolve deployment loads (some id) role short = .ok none) ∧
    (¬Spilled deployment loads (deployment.pool.backendsForClass loads (some id) short) →
      resolve deployment loads (some id) role short =
        .ok (some (deployment.pool.backendsForClass loads (some id) short))) := by
  have some : ¬(deployment.pool.backendsForClass loads (some id) short).isEmpty = true :=
    fun none => present (Metered.isEmpty_iff_handlesOf.mp none)
  have overflows : canOverflowToOpenrouter deployment.settings.llmOpenrouterModelMap
      deployment.pool.openrouterUrl (Option.some id) = true := serves
  rw [resolve, Option.any_some, if_neg (by simp [other])]
  dsimp only
  rw [if_pos (by simpa using some), overflows, Bool.and_true]
  have spilled : ((decide (0 < deployment.settings.llmBackendMaxConcurrency) &&
        (deployment.pool.backendsForClass loads (Option.some id) short).all
          (fun handle => handle.atRoof (loads handle.url))) ||
      (deployment.pool.backendsForClass loads (Option.some id) short).all
        (fun handle => !(loads handle.url).healthy)) = true ↔
      Spilled deployment loads
        (deployment.pool.backendsForClass loads (Option.some id) short) := by
    simp [Spilled]
  refine ⟨fun spills => if_pos (spilled.mpr spills), fun stays => if_neg (mt spilled.mp stays)⟩

end

/-- What the leg of OpenRouter offers is listed under an id that is mapped to the model. -/
theorem offer_mapped (iterated : Iterated deployment entries) {m shown : Json} {id : Str}
    (configured : deployment.pool.openrouterUrl ≠ [])
    (offered : offer (orReverse entries) true m = some (id, shown)) :
    Mapped deployment m shown := by
  have same := rawId_offer iterated offered
  obtain ⟨listed, under, pair⟩ := Option.map_eq_some_iff.mp offered
  obtain ⟨rfl, described⟩ := Prod.mk.inj pair
  have entry := orReverse_some iterated under
  rw [← same] at entry
  have serves := serves_of_mapped configured entry
  refine ⟨entry, ?_, fun body named => Metered.rewritten_model named entry,
    fun claude loads role short => resolve_claude claude,
    fun other alone loads role short => resolve_metered other serves alone,
    fun other present loads role short => resolve_backed other serves present⟩
  rw [same]
  exact described.symm

/-- Any other leg offers its models under their own ids. -/
theorem offer_own {reverse : Str → Option Str} {m shown : Json} {id : Str}
    (offered : offer reverse false m = some (id, shown)) : Own m shown := by
  obtain ⟨listed, -, pair⟩ := Option.map_eq_some_iff.mp offered
  obtain ⟨-, rfl⟩ := Prod.mk.inj pair
  exact ⟨(rawId_withWindow m).symm, rfl⟩

/-- An offer of a leg is that of one of its models. -/
theorem mem_offers {reverse : Str → Option Str} {orBase : Str} {leg : Leg} {id : Str}
    {shown : Json} (member : (id, shown) ∈ offers reverse orBase leg) :
    ∃ m ∈ models leg, offer reverse (isOr orBase leg.1) m = some (id, shown) :=
  List.mem_filterMap.mp member

/-- What is merged is what the first legs offer, from the legs of more than one base. -/
theorem merged_eq {loads : Loads} {answer : Str → Except Str Json} {data : List Json}
    (merged : listModels deployment loads entries answer = .merged data) :
    data = (firsts (((bases deployment).map (fun base => (base, answer base))).flatMap
      (offers (orReverse entries)
        (Text.trimEndMatches '/' deployment.pool.openrouterUrl)))).map Prod.snd := by
  rw [listModels] at merged
  cases peer : federationPeer deployment with
  | error e =>
    rw [peer] at merged
    cases merged
  | ok peer' =>
    rw [peer] at merged
    cases peer' with
    | some peer => cases merged
    | none =>
      dsimp only at merged
      split at merged
      · cases merged
      · cases merged
      · rw [← gathered_eq]
        exact (Listing.merged.inj merged).symm

/-- No id is listed twice. A listed model is described by the first leg that has its id, and
every model that a leg has is listed under its id, those of OpenRouter where they are mapped. -/
theorem listing_exact (iterated : Iterated deployment entries) {loads : Loads}
    {answer : Str → Except Str Json} {data : List Json}
    (merged : listModels deployment loads entries answer = .merged data) :
    let orBase := Text.trimEndMatches '/' deployment.pool.openrouterUrl
    let legs := (bases deployment).map (fun base => (base, answer base))
    (data.map rawId).Nodup ∧
    (∀ shown ∈ data, ∃ before leg after m, legs = before ++ leg :: after ∧ m ∈ models leg ∧
      (if isOr orBase leg.1 then Mapped deployment m shown else Own m shown) ∧
      ∀ earlier ∈ before, ∀ other ∈ models earlier,
        listedId (orReverse entries) (isOr orBase earlier.1) other ≠ some (rawId shown)) ∧
    ∀ leg ∈ legs, ∀ m ∈ models leg,
      if isOr orBase leg.1 then
        (∃ id, deployment.settings.llmOpenrouterModelMap.lookup id = some (rawId m)) →
          ∃ shown ∈ data,
            deployment.settings.llmOpenrouterModelMap.lookup (rawId shown) = some (rawId m)
      else ∃ shown ∈ data, rawId shown = rawId m := by
  intro orBase legs
  obtain rfl := merged_eq merged
  have named : ∀ pair ∈ firsts (legs.flatMap (offers (orReverse entries) orBase)),
      rawId pair.2 = pair.1 := by
    intro pair member
    obtain ⟨_, leg, _, _, found, _⟩ := mem_firsts_flatMap member
    obtain ⟨m, _, offered⟩ := mem_offers found
    exact rawId_offer iterated offered
  have keys : ((firsts (legs.flatMap (offers (orReverse entries) orBase))).map Prod.snd).map rawId =
      (firsts (legs.flatMap (offers (orReverse entries) orBase))).map Prod.fst := by
    rw [List.map_map]
    exact List.map_congr_left named
  -- What a leg offers under an id, it or an earlier leg is listed with.
  have listed {leg : Leg} (member : leg ∈ legs) {m shown : Json} {id : Str} (has : m ∈ models leg)
      (offered : offer (orReverse entries) (isOr orBase leg.1) m = some (id, shown)) :
      ∃ shown ∈ (firsts (legs.flatMap (offers (orReverse entries) orBase))).map Prod.snd,
        rawId shown = id := by
    have inside : (id, shown) ∈ legs.flatMap (offers (orReverse entries) orBase) :=
      List.mem_flatMap.mpr ⟨leg, member, List.mem_filterMap.mpr ⟨m, has, offered⟩⟩
    have key := mem_keys_firsts.mpr (List.mem_map_of_mem inside)
    rw [← keys] at key
    obtain ⟨shown', member', same⟩ := List.mem_map.mp key
    exact ⟨shown', member', same⟩
  refine ⟨?_, fun shown member => ?_, fun leg member m has => ?_⟩
  · rw [keys]
    exact nodup_firsts _
  · obtain ⟨⟨id, _⟩, taken, rfl⟩ := List.mem_map.mp member
    obtain ⟨before, leg, after, split', found, missing⟩ := mem_firsts_flatMap taken
    obtain ⟨m, has, offered⟩ := mem_offers found
    refine ⟨before, leg, after, m, split', has, ?_, fun earlier inside other has' under => ?_⟩
    · split_ifs with ofOr
      · rw [ofOr] at offered
        refine offer_mapped iterated (fun none => ?_) offered
        rw [isOr, Bool.and_eq_true, Bool.not_eq_true', List.isEmpty_eq_false_iff] at ofOr
        refine ofOr.1 ?_
        dsimp only [orBase]
        rw [none]
        rfl
      · rw [Bool.not_eq_true] at ofOr
        rw [ofOr] at offered
        exact offer_own offered
    · refine missing earlier inside (List.mem_map.mpr ?_)
      rw [named _ taken] at under
      refine ⟨(id, described (isOr orBase earlier.1) id other),
        List.mem_filterMap.mpr ⟨other, has', ?_⟩, rfl⟩
      rw [offer, under, Option.map_some]
  · split_ifs with ofOr
    · rintro ⟨id, mapped⟩
      obtain ⟨other, found⟩ := orReverse_isSome iterated mapped
      have offered : offer (orReverse entries) (isOr orBase leg.1) m =
          some (other, described true other m) := by
        rw [ofOr, offer, listedId, if_pos rfl, found, Option.map_some]
      obtain ⟨shown, inside, same⟩ := listed member has offered
      exact ⟨shown, inside, same ▸ orReverse_some iterated found⟩
    · rw [Bool.not_eq_true] at ofOr
      have offered : offer (orReverse entries) (isOr orBase leg.1) m =
          some (rawId m, described false (rawId m) m) := by
        rw [ofOr, offer, listedId, if_neg (by simp), Option.map_some]
      exact listed member has offered

end

/-- A primary, another backend, and a model that is mapped. -/
def threeLegs : Deployment :=
  ⟨Crates.plain, fun name =>
    List.lookup name [("LLM_BACKEND_URL".str, "http://a".str),
      ("LLM_BACKENDS".str, "coder=http://a,http://b".str),
      ("LLM_OPENROUTER_URL".str, "https://openrouter.ai/api/".str),
      ("LLM_OPENROUTER_MODEL_MAP".str, "glm = z-ai/glm".str)]⟩

/-- A model of which an answer says the id only. -/
def modelNamed (id : String) : Json := .object [("id".str, .string id.str)]

/-- The two backends share a model, and OpenRouter has one that is not mapped. -/
def threeAnswers (base : Str) : Except Str Json :=
  .ok (.object [("data".str, .array (
    if base = "http://a".str then [modelNamed "coder"]
    else if base = "http://b".str then [modelNamed "coder", modelNamed "embedder"]
    else [modelNamed "other", modelNamed "z-ai/glm"]))])

/-- The models of a merged list. -/
def merged? : Listing → Option (List Json)
  | .merged data => some data
  | _ => none

/-- Two backends share a model, which is listed once, and OpenRouter's is listed under the local id.
-/
theorem threeLegs_listed : ∃ data,
    listModels threeLegs (fun _ => Load.initial) [("glm".str, "z-ai/glm".str)] threeAnswers =
        .merged data ∧
      data.map rawId = ["coder".str, "embedder".str, "glm".str] ∧ (data.map rawId).Nodup := by
  have ids : (merged? (listModels threeLegs (fun _ => Load.initial) [("glm".str, "z-ai/glm".str)]
      threeAnswers)).map (List.map rawId) =
      some ["coder".str, "embedder".str, "glm".str] := by decide +kernel
  obtain ⟨data, some, listed⟩ := Option.map_eq_some_iff.mp ids
  have merged : listModels threeLegs (fun _ => Load.initial) [("glm".str, "z-ai/glm".str)]
      threeAnswers = .merged data := by
    cases found : listModels threeLegs (fun _ => Load.initial) [("glm".str, "z-ai/glm".str)]
        threeAnswers with
    | merged other =>
      rw [found] at some
      rw [Option.some.inj some]
    | refused e =>
      rw [found] at some
      cases some
    | forwarded peer =>
      rw [found] at some
      cases some
    | proxied backends =>
      rw [found] at some
      cases some
  have entries : threeLegs.settings.llmOpenrouterModelMap.entries =
      [⟨"glm".str, "z-ai/glm".str⟩] := by decide +kernel
  have iterated : Iterated threeLegs [("glm".str, "z-ai/glm".str)] := by
    intro id mapped
    rw [List.mem_singleton, Prod.mk.injEq, AList.lookup, entries]
    by_cases same : id = "glm".str
    · subst same
      rw [List.dlookup_cons_eq]
      simp [eq_comm]
    · rw [List.dlookup_cons_ne _ _ same]
      simp [same]
  exact ⟨data, merged, listed, (listing_exact iterated merged).1⟩

end LumidPlatform.Llm.ModelList
