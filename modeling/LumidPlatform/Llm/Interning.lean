import LumidPlatform.Llm.Pool

/-!
# Interned backends

The roster and the primary mention addresses, with or without settings, and every address gets
one backend. It has the settings of its first mention. And a model has the addresses of its last
entry in the roster.
-/

namespace LumidPlatform.Llm.Interning

/-! ## Mentions -/

/-- The address of a mention, which backends are told apart by. -/
def base (mention : Str) : Str := Text.trimEndMatches '/' (parseSuffix mention).1

/-- A mention has settings after its address. -/
def Suffixed (mention : Str) : Prop := (Text.splitOnce '#' mention).isSome = true

instance : DecidablePred Suffixed := fun _ => inferInstanceAs (Decidable (_ = true))

/-- The backend with the settings of a mention. -/
def handleOf (defaultMaxConcurrency queueRoof : Nat) (mention : Str) : BackendHandle :=
  ⟨base mention, (parseSuffix mention).2.2.getD defaultMaxConcurrency, queueRoof,
    (parseSuffix mention).2.1, (parseShortSuffix mention).1, (parseShortSuffix mention).2⟩

/-- All mentions, in the order in which they are read. -/
def mentions (primaryUrl : Str) (backends : List (Str × List Str)) : List Str :=
  backends.flatMap Prod.snd ++ (if primaryUrl.isEmpty then [] else [primaryUrl])

/-- The first mention of an address. -/
def firstMention (ms : List Str) (key : Str) : Option Str := ms.find? (fun m => base m == key)

/-- The addresses of the last entry of a model that has some. -/
def lastUrls (model : Str) : List (Str × List Str) → Option (List Str) → Option (List Str)
  | [], found => found
  | (name, urls) :: rest, found =>
    lastUrls model rest (if name = model ∧ urls ≠ [] then some urls else found)

/-- What the pool owes to the operator: one backend for each address that is mentioned; the
settings of a mention that has some, where there is one; the addresses of a model, each served
by its backend; and the primary's backend, shared. -/
structure InterningLaw (primaryUrl : Str) (backends : List (Str × List Str))
    (defaultMaxConcurrency queueRoof : Nat) (pool : BackendPool) : Prop where
  distinct : (pool.all.map BackendHandle.url).Nodup
  addresses : ∀ key, key ∈ pool.all.map BackendHandle.url ↔
    ∃ mention ∈ mentions primaryUrl backends, base mention = key
  explicit : ∀ handle ∈ pool.all,
    (∃ mention ∈ mentions primaryUrl backends, base mention = handle.url ∧ Suffixed mention) →
      ∃ mention ∈ mentions primaryUrl backends, Suffixed mention ∧
        handle = handleOf defaultMaxConcurrency queueRoof mention
  listed : ∀ entry ∈ backends, ∀ url ∈ entry.2, ∃ handles,
    pool.byModel.lookup entry.1 = some handles ∧ base url ∈ handles.map BackendHandle.url
  shared : ∀ model handles, pool.byModel.lookup model = some handles → handles ⊆ pool.all
  primary : pool.primary =
    if primaryUrl.isEmpty then none
    else pool.all.find? (fun handle => handle.url == base primaryUrl)

/-- Where an address has a mention with settings, its first mention has the settings of one. -/
def SettingsFirst (defaultMaxConcurrency queueRoof : Nat) (ms : List Str) : Prop :=
  ∀ mention ∈ ms, Suffixed mention → ∀ first, firstMention ms (base mention) = some first →
    ∃ other ∈ ms, Suffixed other ∧
      handleOf defaultMaxConcurrency queueRoof first =
        handleOf defaultMaxConcurrency queueRoof other

/-- The last entry of a model has the addresses of all its entries. -/
def LastListsAll (backends : List (Str × List Str)) : Prop :=
  ∀ entry ∈ backends, ∀ url ∈ entry.2, ∃ urls,
    lastUrls entry.1 backends none = some urls ∧ base url ∈ urls.map base

/-! ## The table of backends -/

variable {defaultMaxConcurrency queueRoof : Nat}

/-- The table holds a backend for the first mention of each address, and nothing else. -/
structure Holds (defaultMaxConcurrency queueRoof : Nat) (ms : List Str)
    (all : List BackendHandle) : Prop where
  distinct : (all.map BackendHandle.url).Nodup
  find : ∀ key, all.find? (fun handle => handle.url == key) =
    (firstMention ms key).map (handleOf defaultMaxConcurrency queueRoof)

theorem holds_nil : Holds defaultMaxConcurrency queueRoof [] [] := ⟨List.nodup_nil, fun _ => rfl⟩

theorem base_of_firstMention {ms : List Str} {key first : Str}
    (found : firstMention ms key = some first) : base first = key := by
  rw [firstMention] at found
  simpa using List.find?_some found

theorem Holds.mem_iff {ms : List Str} {all : List BackendHandle}
    (holds : Holds defaultMaxConcurrency queueRoof ms all) {handle : BackendHandle} :
    handle ∈ all ↔ ∃ first, firstMention ms handle.url = some first ∧
      handle = handleOf defaultMaxConcurrency queueRoof first := by
  constructor
  · intro member
    have found : all.find? (fun other => other.url == handle.url) = some handle := by
      cases here : all.find? (fun other => other.url == handle.url) with
      | none => exact absurd (List.find?_eq_none.mp here handle member) (by simp)
      | some other =>
        have same : other.url = handle.url := by simpa using List.find?_some here
        rw [List.inj_on_of_nodup_map holds.distinct (List.mem_of_find?_eq_some here) member same]
    rw [holds.find] at found
    obtain ⟨first, mentioned, shown⟩ := Option.map_eq_some_iff.mp found
    exact ⟨first, mentioned, shown.symm⟩
  · rintro ⟨first, mentioned, shown⟩
    have found := holds.find handle.url
    rw [mentioned, Option.map_some, ← shown] at found
    exact List.mem_of_find?_eq_some found

theorem Holds.mem_urls_iff {ms : List Str} {all : List BackendHandle}
    (holds : Holds defaultMaxConcurrency queueRoof ms all) {key : Str} :
    key ∈ all.map BackendHandle.url ↔ ∃ mention ∈ ms, base mention = key := by
  constructor
  · intro member
    obtain ⟨handle, inside, rfl⟩ := List.mem_map.mp member
    obtain ⟨first, mentioned, -⟩ := holds.mem_iff.mp inside
    exact ⟨first, List.mem_of_find?_eq_some mentioned, base_of_firstMention mentioned⟩
  · rintro ⟨mention, member, rfl⟩
    cases mentioned : firstMention ms (base mention) with
    | none => exact absurd (List.find?_eq_none.mp mentioned mention member) (by simp)
    | some first =>
      refine List.mem_map.mpr ⟨handleOf defaultMaxConcurrency queueRoof first, ?_,
        base_of_firstMention mentioned⟩
      rw [holds.mem_iff]
      refine ⟨first, ?_, rfl⟩
      rw [← mentioned, ← base_of_firstMention mentioned]
      rfl

/-- One more mention: its backend is the one of its address. -/
theorem Holds.intern {ms : List Str} {all : List BackendHandle}
    (holds : Holds defaultMaxConcurrency queueRoof ms all) (url : Str) :
    Holds defaultMaxConcurrency queueRoof (ms ++ [url])
        (intern defaultMaxConcurrency queueRoof all url).2 ∧
      all ⊆ (intern defaultMaxConcurrency queueRoof all url).2 ∧
      (intern defaultMaxConcurrency queueRoof all url).2.find?
        (fun handle => handle.url == base url) =
          some (intern defaultMaxConcurrency queueRoof all url).1 := by
  have known := holds.find (base url)
  have later (key : Str) : firstMention (ms ++ [url]) key =
      (firstMention ms key).or (if base url = key then some url else none) := by
    rw [firstMention, List.find?_append, firstMention, List.find?_singleton]
    simp only [beq_iff_eq]
  have keyed : Text.trimEndMatches '/' (parseSuffix url).1 = base url := rfl
  rw [Llm.intern]
  simp only [keyed]
  cases found : all.find? (fun handle => handle.url == base url) with
  | some handle =>
    refine ⟨⟨holds.distinct, fun key => ?_⟩, List.Subset.refl all, found⟩
    rw [later, holds.find]
    by_cases same : base url = key
    · subst same
      rw [found] at known
      obtain ⟨first, mentioned, -⟩ := Option.map_eq_some_iff.mp known.symm
      rw [mentioned, Option.some_or]
    · rw [if_neg same, Option.or_none]
  | none =>
    rw [found] at known
    have unknown : firstMention ms (base url) = none := Option.map_eq_none_iff.mp known.symm
    have fresh : base url ∉ all.map BackendHandle.url := by
      rintro member
      obtain ⟨handle, inside, same⟩ := List.mem_map.mp member
      exact absurd (List.find?_eq_none.mp found handle inside) (by simp [same])
    refine ⟨⟨?_, fun key => ?_⟩, List.subset_append_left _ _, ?_⟩
    · rw [List.map_append, List.nodup_append]
      refine ⟨holds.distinct, List.nodup_singleton _, fun key member other here => ?_⟩
      rw [List.mem_singleton.mp here]
      rintro rfl
      exact fresh member
    · rw [later, List.find?_append, holds.find, List.find?_singleton]
      by_cases same : base url = key
      · subst same
        rw [unknown, if_pos rfl, if_pos (beq_self_eq_true _)]
        rfl
      · rw [if_neg same, if_neg (by simpa using same), Option.or_none, Option.or_none]
    · rw [List.find?_append, found, List.find?_singleton, if_pos (beq_self_eq_true _)]
      rfl

/-- The addresses of one entry. -/
theorem Holds.internAll (urls : List Str) {ms : List Str} {all : List BackendHandle}
    (holds : Holds defaultMaxConcurrency queueRoof ms all) :
    Holds defaultMaxConcurrency queueRoof (ms ++ urls)
        (internAll defaultMaxConcurrency queueRoof all urls).2 ∧
      all ⊆ (internAll defaultMaxConcurrency queueRoof all urls).2 ∧
      (internAll defaultMaxConcurrency queueRoof all urls).1 ⊆
        (internAll defaultMaxConcurrency queueRoof all urls).2 ∧
      (internAll defaultMaxConcurrency queueRoof all urls).1.map BackendHandle.url =
        urls.map base := by
  induction urls generalizing ms all with
  | nil =>
    rw [List.append_nil]
    exact ⟨holds, List.Subset.refl all, List.nil_subset _, rfl⟩
  | cons url rest inductionHypothesis =>
    obtain ⟨held, grown, served⟩ := holds.intern url
    obtain ⟨heldAll, grownAll, inside, addressed⟩ := inductionHypothesis held
    rw [List.append_assoc, List.singleton_append] at heldAll
    have member := grownAll (List.mem_of_find?_eq_some served)
    have address : (Llm.intern defaultMaxConcurrency queueRoof all url).1.url = base url := by
      simpa using List.find?_some served
    refine ⟨heldAll, List.Subset.trans grown grownAll, ?_, ?_⟩
    · exact List.cons_subset.mpr ⟨member, inside⟩
    · simp only [Llm.internAll, List.map_cons, address, addressed]

/-- The roster. A model is served by the backends of its last entry. -/
theorem Holds.internModels (backends : List (Str × List Str)) {ms : List Str}
    {all : List BackendHandle} (holds : Holds defaultMaxConcurrency queueRoof ms all)
    {byModel : HashMap (List BackendHandle)} {seen : Str → Option (List Str)}
    (served : ∀ model handles, byModel.lookup model = some handles → handles ⊆ all)
    (addressed : ∀ model, (byModel.lookup model).map (List.map BackendHandle.url) =
      (seen model).map (List.map base)) :
    Holds defaultMaxConcurrency queueRoof (ms ++ backends.flatMap Prod.snd)
        (internModels defaultMaxConcurrency queueRoof backends byModel all).2 ∧
      (∀ model handles, (internModels defaultMaxConcurrency queueRoof backends byModel
          all).1.lookup model = some handles →
        handles ⊆ (internModels defaultMaxConcurrency queueRoof backends byModel all).2) ∧
      ∀ model, ((internModels defaultMaxConcurrency queueRoof backends byModel all).1.lookup
          model).map (List.map BackendHandle.url) =
        (lastUrls model backends (seen model)).map (List.map base) := by
  induction backends generalizing ms all byModel seen with
  | nil =>
    rw [List.flatMap_nil, List.append_nil]
    exact ⟨holds, served, addressed⟩
  | cons entry rest inductionHypothesis =>
    obtain ⟨model, urls⟩ := entry
    obtain ⟨held, grown, inside, urlsOf⟩ := holds.internAll urls
    have empty : (Llm.internAll defaultMaxConcurrency queueRoof all urls).1.isEmpty = true ↔
        urls = [] := by
      rw [List.isEmpty_iff, ← List.map_eq_nil_iff (f := BackendHandle.url), urlsOf,
        List.map_eq_nil_iff]
    have parts := @inductionHypothesis _ _ held
      (if (Llm.internAll defaultMaxConcurrency queueRoof all urls).1.isEmpty then byModel
        else byModel.insert model (Llm.internAll defaultMaxConcurrency queueRoof all urls).1)
      (fun name => if model = name ∧ urls ≠ [] then some urls else seen name) ?_ ?_
    · rw [List.append_assoc] at parts
      exact parts
    · intro name handles found
      split_ifs at found with none
      · exact List.Subset.trans (served name handles found) grown
      · by_cases same : name = model
        · subst same
          rw [AList.lookup_insert] at found
          obtain rfl := Option.some.inj found
          exact inside
        · rw [AList.lookup_insert_ne same] at found
          exact List.Subset.trans (served name handles found) grown
    · intro name
      by_cases none : urls = []
      · rw [if_pos (empty.mpr none), if_neg (fun both => both.2 none)]
        exact addressed name
      · rw [if_neg (mt empty.mp none)]
        by_cases same : name = model
        · subst same
          rw [AList.lookup_insert, if_pos ⟨rfl, none⟩, Option.map_some, Option.map_some, urlsOf]
        · rw [AList.lookup_insert_ne same, if_neg (fun both => same both.1.symm)]
          exact addressed name

/-! ## The pool -/

variable {primaryUrl openrouterUrl : Str} {backends : List (Str × List Str)}

/-- The pool: the table of all mentions, the models and the primary. -/
theorem internBackends_holds (primaryUrl : Str) (backends : List (Str × List Str))
    (defaultMaxConcurrency queueRoof : Nat) (openrouterUrl : Str) :
    let pool := internBackends primaryUrl backends defaultMaxConcurrency queueRoof openrouterUrl
    Holds defaultMaxConcurrency queueRoof (mentions primaryUrl backends) pool.all ∧
      (∀ model handles, pool.byModel.lookup model = some handles → handles ⊆ pool.all) ∧
      (∀ model, (pool.byModel.lookup model).map (List.map BackendHandle.url) =
        (lastUrls model backends none).map (List.map base)) ∧
      pool.primary = if primaryUrl.isEmpty then none
        else pool.all.find? (fun handle => handle.url == base primaryUrl) := by
  have nothing (model : Str) :
      ((∅ : HashMap (List BackendHandle)).lookup model) = none := AList.lookup_empty model
  obtain ⟨held, served, addressed⟩ := @Holds.internModels defaultMaxConcurrency queueRoof backends
    [] [] holds_nil ∅ (fun _ => none)
    (fun model handles found => by rw [nothing] at found; cases found)
    (fun model => by rw [nothing]; rfl)
  rw [List.nil_append] at held
  intro pool
  by_cases empty : primaryUrl.isEmpty = true
  · have shape : pool = ⟨(internModels defaultMaxConcurrency queueRoof backends ∅ []).1, none,
        (internModels defaultMaxConcurrency queueRoof backends ∅ []).2, openrouterUrl⟩ :=
      if_pos empty
    rw [shape, mentions, if_pos empty, List.append_nil, if_pos empty]
    exact ⟨held, served, addressed, rfl⟩
  · obtain ⟨heldToo, grown, found⟩ := held.intern primaryUrl
    have shape : pool = ⟨(internModels defaultMaxConcurrency queueRoof backends ∅ []).1,
        some (intern defaultMaxConcurrency queueRoof
          (internModels defaultMaxConcurrency queueRoof backends ∅ []).2 primaryUrl).1,
        (intern defaultMaxConcurrency queueRoof
          (internModels defaultMaxConcurrency queueRoof backends ∅ []).2 primaryUrl).2,
        openrouterUrl⟩ := if_neg empty
    rw [shape, mentions, if_neg empty, if_neg empty]
    refine ⟨heldToo, fun model handles listed => ?_, addressed, found.symm⟩
    exact List.Subset.trans (served model handles listed) grown

/-- The law holds exactly where a mention with settings is not preceded by one with others of
the same address, and a model's last entry has the addresses of all its entries. -/
theorem interningLaw_iff (primaryUrl : Str) (backends : List (Str × List Str))
    (defaultMaxConcurrency queueRoof : Nat) (openrouterUrl : Str) :
    InterningLaw primaryUrl backends defaultMaxConcurrency queueRoof
        (internBackends primaryUrl backends defaultMaxConcurrency queueRoof openrouterUrl) ↔
      SettingsFirst defaultMaxConcurrency queueRoof (mentions primaryUrl backends) ∧
        LastListsAll backends := by
  obtain ⟨held, served, addressed, primary⟩ := internBackends_holds primaryUrl backends
    defaultMaxConcurrency queueRoof openrouterUrl
  have listed (model url : Str) :
      (∃ handles, (internBackends primaryUrl backends defaultMaxConcurrency queueRoof
          openrouterUrl).byModel.lookup model = some handles ∧
        base url ∈ handles.map BackendHandle.url) ↔
      ∃ urls, lastUrls model backends none = some urls ∧ base url ∈ urls.map base := by
    have same := addressed model
    constructor
    · rintro ⟨handles, found, member⟩
      rw [found, Option.map_some] at same
      obtain ⟨urls, last, shown⟩ := Option.map_eq_some_iff.mp same.symm
      exact ⟨urls, last, shown ▸ member⟩
    · rintro ⟨urls, last, member⟩
      rw [last, Option.map_some] at same
      obtain ⟨handles, found, shown⟩ := Option.map_eq_some_iff.mp same
      exact ⟨handles, found, shown ▸ member⟩
  constructor
  · intro law
    constructor
    · intro mention member suffixed first mentioned
      have inside := held.mem_iff.mpr ⟨first, by
        rw [← mentioned, ← base_of_firstMention mentioned]
        rfl, rfl⟩
      obtain ⟨other, otherMember, otherSuffixed, same⟩ := law.explicit _ inside
        ⟨mention, member, (base_of_firstMention mentioned).symm, suffixed⟩
      exact ⟨other, otherMember, otherSuffixed, same⟩
    · exact fun entry member url inside => (listed entry.1 url).mp (law.listed entry member url inside)
  · rintro ⟨settings, lists⟩
    refine ⟨held.distinct, fun key => held.mem_urls_iff, ?_, ?_, served, primary⟩
    · rintro handle member ⟨mention, mentionMember, same, suffixed⟩
      obtain ⟨first, mentioned, shown⟩ := held.mem_iff.mp member
      rw [← same] at mentioned
      obtain ⟨other, otherMember, otherSuffixed, equal⟩ :=
        settings mention mentionMember suffixed first mentioned
      exact ⟨other, otherMember, otherSuffixed, shown.trans equal⟩
    · exact fun entry member url inside => (listed entry.1 url).mpr (lists entry member url inside)

/-- In a roster that mentions an address bare and then with a tier, the tier is lost. -/
theorem bare_mention_wins :
    ¬∀ (primaryUrl : Str) (backends : List (Str × List Str))
      (defaultMaxConcurrency queueRoof : Nat) (openrouterUrl : Str),
      InterningLaw primaryUrl backends defaultMaxConcurrency queueRoof
        (internBackends primaryUrl backends defaultMaxConcurrency queueRoof openrouterUrl) := by
  intro all
  have law := all [] (parseBackends "fast=http://a;big=http://a#tier=1".str) 16 1 []
  obtain ⟨mention, member, suffixed, same⟩ := law.explicit
    ⟨"http://a".str, 16, 1, 0, none, 0⟩ (by decide +kernel)
    ⟨"http://a#tier=1".str, by decide +kernel, by decide +kernel, by decide +kernel⟩
  have given : mentions [] (parseBackends "fast=http://a;big=http://a#tier=1".str) =
      ["http://a".str, "http://a#tier=1".str] := by decide +kernel
  rw [given] at member
  rcases List.mem_cons.mp member with rfl | later
  · exact absurd suffixed (by decide +kernel)
  · obtain rfl := List.mem_singleton.mp later
    exact absurd same (by decide +kernel)

end LumidPlatform.Llm.Interning
