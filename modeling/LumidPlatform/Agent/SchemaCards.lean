import LumidPlatform.Crates
import LumidPlatform.Lib.Paths
import LumidPlatform.Lib.TimedMemo
import LumidPlatform.Llm.Settings
import Mathlib.Data.List.Sort

/-!
# The schemas that cards are shown of

The agent is told of tables by cards. Cards are built from the catalogues of the database, in
several queries, and the store keeps the bundle of a set of schemas for some time, under a
digest of their names. An allowlist of schemas caps what a request may ask for; no allowlist and
no request mean all schemas but those of the system.
-/

namespace LumidPlatform.Agent.SchemaCards

open TimedMemo Transitions

variable {Detail : Type}

/-- A card, by the name of its table; the rest of it is what one table's catalogues say. -/
structure SchemaCard (Detail : Type) where
  fqname : Str
  detail : Detail
  deriving DecidableEq

/-- What `build_cards` reads: names in the order of the database, and what `build_one_card` comes
to for a table. -/
structure Database (Detail : Type) where
  namespaces : List Str
  baseTables : List (Str × Str)
  oneCard : Str → Str → Option Detail

/-! ## The store -/

/-- The condition of the query for all schemas. -/
def userNamespace (name : Str) : Bool :=
  !Text.startsWith name "pg_".str && name != "information_schema".str &&
    name != "lumid_data_meta".str

/-- How far `build_cards` is. -/
inductive Build (Detail : Type) where
  | namespaces
  | tables (schemas : List Str)
  | cards (rows : List (Str × Str)) (cards : List (SchemaCard Detail))
  deriving DecidableEq

/-- `build_one_card` for a row; a table whose card fails is passed over. -/
def Database.cardOf (db : Database Detail) (row : Str × Str) : Option (SchemaCard Detail) :=
  (db.oneCard row.1 row.2).map (fun detail => ⟨row.1 ++ '.' :: row.2, detail⟩)

/-- `build_cards`. -/
def buildCards : Loader (List Str) (List (SchemaCard Detail)) (Build Detail) (Database Detail) where
  start schemas := if schemas.isEmpty then .namespaces else .tables schemas
  step db _ build :=
    match build with
    | .namespaces => .inl (.tables (db.namespaces.filter userNamespace))
    | .tables schemas => .inl (.cards (db.baseTables.filter (fun row => schemas.contains row.1)) [])
    | .cards [] cards => .inr cards
    | .cards (row :: rows) cards => .inl (.cards rows (cards ++ (db.cardOf row).toList))
  looks _ := true
  stores _ _ := true

/-- `sort`. -/
def sorted (names : List Str) : List Str :=
  names.insertionSort (fun left right => Text.le left right)

/-- The text of `scope_key` before it is digested. -/
def normalised (scope : List Str) : Str := Text.join [','] (sorted (scope.map Text.trim))

/-- `scope_key`. -/
def scopeKey (crates : Crates) (scope : List Str) : Str :=
  (crates.sha256Hex (Text.utf8 (normalised scope))).take 32

/-! ## The tool -/

/-- Names that commas separate. -/
def names (raw : Str) : List Str :=
  ((raw.splitOn ',').map Text.trim).filter (fun name => !name.isEmpty)

/-- `user_schemas`. -/
def userSchemas (env : Llm.Env) : List Str := names (env.str "USER_SCHEMAS".str [])

/-- The schemas that cards may be built for. -/
inductive Scope where
  | all
  | only (schemas : List Str)

/-- `effective_scope`: a request is cut down to the allowlist, where there is one. -/
def effectiveScope (requested allowlist : List Str) : Scope :=
  if allowlist.isEmpty then
    if requested.isEmpty then .all else .only requested
  else if requested.isEmpty then .only allowlist
  else .only (requested.filter (fun schema => allowlist.contains schema))

/-- The schemas that are asked for, in the text of the argument. -/
def requested (args : JsonMap) : List Str :=
  names (Text.trim ((((args.get "scope".str).bind Json.asStr?)).getD []))

/-- What `get_schema_cards` asks of the store. -/
def asked (allowlist : List Str) (args : JsonMap) : Option (List Str) :=
  match effectiveScope (requested args) allowlist with
  | .all => some []
  | .only schemas => if !schemas.isEmpty then some schemas else none

/-- `render_bundle_for_prompt`, where a card is rendered somehow. -/
def renderBundle (renderCard : SchemaCard Detail → Str) (cards : List (SchemaCard Detail)) : Str :=
  Text.join ['\n'] (cards.flatMap (fun card => [[], renderCard card]))

/-- The answer: how many cards there are, and their text. -/
def toValue (renderCard : SchemaCard Detail → Str) (cards : List (SchemaCard Detail)) : Json :=
  .object [("table_count".str, .number (.int cards.length)),
    ("schema_cards".str, .string (renderBundle renderCard cards))]

/-- `get_schema_cards`, where `get_or_build` comes to an outcome for what it is asked. -/
def getSchemaCards (renderCard : SchemaCard Detail → Str) (allowlist : List Str)
    (getOrBuild : List Str → ApiResult (List (SchemaCard Detail))) (args : JsonMap) :
    ApiResult Json :=
  match asked allowlist args with
  | some schemas => (getOrBuild schemas).map (toValue renderCard)
  | none => .ok (toValue renderCard [])

/-! ## What a build is limited to -/

/-- A schema of a scope, where no scope stands for all of the users' schemas. -/
def Within (scope : List Str) (schema : Str) : Prop :=
  if scope.isEmpty then userNamespace schema = true else schema ∈ scope

/-- The card is of a table in a schema of the scope. -/
def Of (scope : List Str) (card : SchemaCard Detail) : Prop :=
  ∃ schema table, card.fqname = schema ++ '.' :: table ∧ Within scope schema

/-- What a build in progress has in hand is inside its scope. -/
def Building (scope : List Str) : Build Detail → Prop
  | .namespaces => scope.isEmpty = true
  | .tables schemas => ∀ schema ∈ schemas, Within scope schema
  | .cards rows cards => (∀ row ∈ rows, Within scope row.1) ∧ ∀ card ∈ cards, Of scope card

/-- The card of a table inside the scope is of the scope. -/
theorem cardOf_within {db : Database Detail} {scope : List Str} {row : Str × Str}
    (within : Within scope row.1) : ∀ card ∈ (db.cardOf row).toList, Of scope card := by
  intro card member
  obtain ⟨detail, -, rfl⟩ := Option.map_eq_some_iff.mp (Option.mem_toList.mp member)
  exact ⟨row.1, row.2, rfl, within⟩

/-- A build stays within its scope, whatever the database holds at each of its steps. -/
theorem buildCards_keeps {held : Nat → Database Detail → Prop} :
    buildCards.Keeps held Building (fun _ scope cards => ∀ card ∈ cards, Of scope card) where
  start scope := by
    rw [buildCards]
    dsimp only
    split_ifs with all
    · exact all
    · intro schema member
      rw [Within, if_neg all]
      exact member
  more _ db scope build later _ building advanced := by
    match build with
    | .namespaces =>
      obtain rfl := Sum.inl.inj advanced
      intro schema member
      have all : scope.isEmpty = true := building
      rw [Within, if_pos all]
      exact (List.mem_filter.mp member).2
    | .tables schemas =>
      obtain rfl := Sum.inl.inj advanced
      refine ⟨fun row member => ?_, fun _ none => absurd none List.not_mem_nil⟩
      exact building row.1 (List.contains_iff_mem.mp (List.mem_filter.mp member).2)
    | .cards [] cards => cases advanced
    | .cards (row :: rows) cards =>
      obtain rfl := Sum.inl.inj advanced
      obtain ⟨left, built⟩ := building
      refine ⟨fun other member => left other (List.mem_cons_of_mem _ member), ?_⟩
      intro card member
      rcases List.mem_append.mp member with before | last
      · exact built card before
      · exact cardOf_within (left row List.mem_cons_self) card last
  done _ db scope build cards _ building advanced := by
    match build with
    | .namespaces => cases advanced
    | .tables schemas => cases advanced
    | .cards [] cards =>
      obtain rfl := Sum.inr.inj advanced
      exact building.2
    | .cards (row :: rows) cards => cases advanced

/-! ## Which scopes share a key -/

/-- Names as lists of schemas have them. -/
def Plain (scope : List Str) : Prop :=
  ∀ name ∈ scope, name ≠ [] ∧ ',' ∉ name ∧ Text.trim name = name

/-- Trimming adds no characters. -/
theorem not_mem_trim {c : Char} {s : Str} (absent : c ∉ s) : c ∉ Text.trim s := by
  intro member
  have inside : Text.trim s <+: Text.trimStart s := List.rdropWhile_prefix _ _
  exact absent ((List.dropWhile_suffix _).subset (inside.subset member))

/-- The names of a list have neither commas nor white space around them. -/
theorem names_plain (raw : Str) : Plain (names raw) := by
  intro name member
  obtain ⟨member, nonempty⟩ := List.mem_filter.mp member
  obtain ⟨part, inside, rfl⟩ := List.mem_map.mp member
  refine ⟨fun empty => ?_, ?_, Llm.trim_trim part⟩
  · rw [empty] at nonempty
    cases nonempty
  · exact not_mem_trim (Paths.separator_not_mem inside)

/-- Neither have those of a part of it. -/
theorem Plain.filter {scope : List Str} (plain : Plain scope) (kept : Str → Bool) :
    Plain (scope.filter kept) :=
  fun name member => plain name (List.mem_filter.mp member).1

/-- What is asked of the store are plain names of schemas: those requested, and none outside the
allowlist. -/
theorem asked_within {allowlist scope : List Str} {args : JsonMap} (plain : Plain allowlist)
    (asks : asked allowlist args = some scope) :
    Plain scope ∧ ∀ schema, Within scope schema →
      (requested args ≠ [] → schema ∈ requested args) ∧ (allowlist ≠ [] → schema ∈ allowlist) ∧
        (requested args = [] → allowlist = [] → userNamespace schema = true) := by
  have own : Plain (requested args) := names_plain _
  have within {names : List Str} (some : ¬names.isEmpty) (schema : Str) :
      Within names schema ↔ schema ∈ names := by
    rw [Within, if_neg some]
  rw [asked, effectiveScope] at asks
  split_ifs at asks with noneAllowed noneRequested noneRequested
  · obtain rfl := Option.some.inj asks
    have allowed := List.isEmpty_iff.mp noneAllowed
    have request := List.isEmpty_iff.mp noneRequested
    refine ⟨fun _ none => absurd none List.not_mem_nil, fun schema inside => ?_⟩
    exact ⟨fun some => absurd request some, fun some => absurd allowed some, fun _ _ => inside⟩
  · dsimp only at asks
    rw [if_pos (by simpa using noneRequested)] at asks
    obtain rfl := Option.some.inj asks
    have allowed := List.isEmpty_iff.mp noneAllowed
    refine ⟨own, fun schema inside => ⟨fun _ => (within noneRequested schema).mp inside,
      fun some => absurd allowed some, fun none _ => absurd none ?_⟩⟩
    simpa using noneRequested
  · dsimp only at asks
    rw [if_pos (by simpa using noneAllowed)] at asks
    obtain rfl := Option.some.inj asks
    have request := List.isEmpty_iff.mp noneRequested
    refine ⟨plain, fun schema inside => ⟨fun some => absurd request some,
      fun _ => (within noneAllowed schema).mp inside, fun _ none => absurd none ?_⟩⟩
    simpa using noneAllowed
  · dsimp only at asks
    split_ifs at asks with some
    obtain rfl := Option.some.inj asks
    refine ⟨own.filter _, fun schema inside => ?_⟩
    have both := List.mem_filter.mp ((within (by simpa using some) schema).mp inside)
    refine ⟨fun _ => both.1, fun _ => List.contains_iff_mem.mp both.2, fun none => absurd none ?_⟩
    simpa using noneRequested

/-- Sorting keeps the names. -/
theorem sorted_perm (names : List Str) : (sorted names).Perm names :=
  List.perm_insertionSort _ names

/-- The text of a scope with plain names can be taken apart again. -/
theorem splitOn_normalised {scope : List Str} (plain : Plain scope) (some : scope ≠ []) :
    (normalised scope).splitOn ',' = sorted scope := by
  have trimmed : scope.map Text.trim = scope := by
    rw [List.map_congr_left (fun name member => (plain name member).2.2), List.map_id']
  rw [normalised, trimmed, Text.join]
  refine List.splitOn_intercalate ',' (fun name member => ?_) (fun none => some ?_)
  · exact (plain name ((sorted_perm scope).mem_iff.mp member)).2.1
  · exact List.Perm.nil_eq (none ▸ sorted_perm scope) |>.symm

/-- No names are written as nothing. -/
theorem normalised_nil : normalised [] = [] := by simp [normalised, sorted, Text.join]

/-- And nothing else is: each plain name is written with its characters. -/
theorem eq_nil_of_normalised {scope : List Str} (plain : Plain scope)
    (text : normalised scope = []) : scope = [] := by
  by_contra some
  have blank : [] ∈ sorted scope := by
    rw [← splitOn_normalised plain some, text, List.splitOn_nil]
    exact List.mem_singleton_self _
  exact (plain [] ((sorted_perm scope).mem_iff.mp blank)).1 rfl

/-- Two plain scopes with one text have the same members. -/
theorem normalised_injective {scope scope' : List Str} (plain : Plain scope)
    (plain' : Plain scope') (same : normalised scope = normalised scope') :
    scope.Perm scope' := by
  by_cases none : scope = []
  · subst none
    rw [eq_nil_of_normalised plain' (same.symm.trans normalised_nil)]
  · have some : scope' ≠ [] := by
      rintro rfl
      exact none (eq_nil_of_normalised plain (same.trans normalised_nil))
    have lists : sorted scope = sorted scope' := by
      rw [← splitOn_normalised plain none, ← splitOn_normalised plain' some, same]
    exact (sorted_perm scope).symm.trans (lists ▸ sorted_perm scope')

/-- The cards of a bundle are of a scope with the same members. -/
theorem Of.perm {scope scope' : List Str} {card : SchemaCard Detail} (of : Of scope card)
    (same : scope.Perm scope') : Of scope' card := by
  obtain ⟨schema, table, named, within⟩ := of
  refine ⟨schema, table, named, ?_⟩
  rw [Within] at within ⊢
  have empty : scope.isEmpty = scope'.isEmpty := by
    rw [Bool.eq_iff_iff, List.isEmpty_iff, List.isEmpty_iff, ← List.length_eq_zero_iff,
      ← List.length_eq_zero_iff, same.length_eq]
  rw [← empty, ← same.mem_iff]
  exact within

section Runs

variable {crates : Crates} {ttl : Nat} {allowlist : List Str}

/-- The store answers a scope in the run. -/
def Answered (w : World Str (List Str) (List (SchemaCard Detail)) (Build Detail) (Database Detail))
    (scope : List Str) (cards : List (SchemaCard Detail)) (built stored moment : Nat) : Prop :=
  ⟨scope, .answered ⟨cards, built, stored⟩ moment⟩ ∈ w.calls

instance [DecidableEq Detail]
    (w : World Str (List Str) (List (SchemaCard Detail)) (Build Detail) (Database Detail))
    (scope : List Str) (cards : List (SchemaCard Detail)) (built stored moment : Nat) :
    Decidable (Answered w scope cards built stored moment) := inferInstanceAs (Decidable (_ ∈ _))

/-- Whatever the store was asked and whatever the database held, what the tool shows are cards
of tables in schemas that were requested and are allowed; with neither a request nor an allowlist
they are the users'. The store answers with what it stored less than its time to live ago. -/
theorem cards_permitted {env : Llm.Env} {renderCard : SchemaCard Detail → Str}
    {labels : List (Label Str (List Str) (Database Detail))} {db : Database Detail}
    {w : World Str (List Str) (List (SchemaCard Detail)) (Build Detail) (Database Detail)}
    (ran : run (step ttl buildCards (scopeKey crates)) (start db) labels = some w)
    (tools : ∀ scope, .call scope ∈ labels → ∃ args, asked (userSchemas env) args = some scope)
    (apart : ∀ scope scope', .call scope ∈ labels → .call scope' ∈ labels →
      scopeKey crates scope = scopeKey crates scope' → normalised scope = normalised scope')
    {getOrBuild : List Str → ApiResult (List (SchemaCard Detail))}
    (answers : ∀ scope cards, getOrBuild scope = .ok cards →
      ∃ built stored moment, Answered w scope cards built stored moment)
    {args : JsonMap} {answer : Json}
    (shown : getSchemaCards renderCard (userSchemas env) getOrBuild args = .ok answer) :
    (∀ scope cards built stored moment, Answered w scope cards built stored moment →
      built ≤ stored ∧ stored ≤ moment ∧ moment ≤ w.now ∧
        (stored = moment ∨ moment < stored + ttl)) ∧
    ∃ cards, answer = toValue renderCard cards ∧ ∀ card ∈ cards, ∃ schema table,
      card.fqname = schema ++ '.' :: table ∧
      (requested args ≠ [] → schema ∈ requested args) ∧
      (userSchemas env ≠ [] → schema ∈ userSchemas env) ∧
      (requested args = [] → userSchemas env = [] → userNamespace schema = true) := by
  have sound := sound_run buildCards_keeps ran
  have called := requests_run ran
  have plain : ∀ scope ∈ w.requests, Plain scope := by
    intro scope member
    obtain ⟨args, asks⟩ := tools scope (called scope member)
    exact (asked_within (names_plain _) asks).1
  refine ⟨fun scope cards built stored moment answered => ?_, ?_⟩
  · obtain ⟨first, before, past, how⟩ := sound.stages _ answered
    exact ⟨first, before, past, how.imp And.left And.left⟩
  rw [getSchemaCards] at shown
  cases asks : asked (userSchemas env) args with
  | none =>
    rw [asks] at shown
    exact ⟨[], (Except.ok.inj shown).symm, fun _ none => absurd none List.not_mem_nil⟩
  | some scope =>
    rw [asks] at shown
    obtain ⟨cards, got, rfl⟩ := ApiResult.map_eq_ok.mp shown
    obtain ⟨built, stored, moment, answered⟩ := answers scope cards got
    have own : scope ∈ w.requests := List.mem_map_of_mem answered
    obtain ⟨other, member, same, loaded⟩ : ∃ other ∈ w.requests,
        scopeKey crates other = scopeKey crates scope ∧ ∀ card ∈ cards, Of other card := by
      obtain ⟨-, -, -, ⟨-, loaded⟩ | ⟨-, -, other, member, same, -, loaded⟩⟩ :=
        sound.stages _ answered
      · exact ⟨scope, own, rfl, loaded⟩
      · exact ⟨other, member, same, loaded⟩
    have members := normalised_injective (plain other member) (plain scope own)
      (apart other scope (called other member) (called scope own) same)
    refine ⟨cards, rfl, fun card inside => ?_⟩
    obtain ⟨schema, table, named, within⟩ := (loaded card inside).perm members
    exact ⟨schema, table, named, (asked_within (names_plain _) asks).2 schema within⟩

end Runs

/-- A schema of the two that are allowed gets a table while its cards are built. -/
def crossedDb (tables : List (Str × Str)) : Database Nat where
  namespaces := ["market".str, "pg_toast".str, "secret".str, "star".str]
  baseTables := ("market".str, "ohlc".str) :: ("secret".str, "keys".str) :: tables
  oneCard _ table := some table.length

/-- The third call asks for the same schemas as the first one, in another order. -/
def crossed : List (Label Str (List Str) (Database Nat)) := [
  .call ["market".str, "star".str], .call ["star".str], .go 0, .go 1, .go 1,
  .change (crossedDb [("star".str, "fact".str)]), .go 0, .go 0, .go 0, .pass 5, .go 0, .go 0,
  .go 1, .go 1, .call ["star".str, "market".str], .pass 200, .go 2]

/-- An environment with two schemas. -/
def crossedEnv : Llm.Env := fun name =>
  if name = "USER_SCHEMAS".str then some "market, star".str else none

/-- The cards of both. -/
def crossedCards : List (SchemaCard Nat) := [⟨"market.ohlc".str, 4⟩, ⟨"star.fact".str, 4⟩]

/-- The world after two builds that overlap. -/
def crossedWorld : World Str (List Str) (List (SchemaCard Nat)) (Build Nat) (Database Nat) :=
  (run (step 300 buildCards (scopeKey Crates.plain)) (start (crossedDb [])) crossed).getD
    (start (crossedDb []))

/-- What the third call comes to. -/
def crossedOutcome (scope : List Str) : ApiResult (List (SchemaCard Nat)) :=
  if scope = ["star".str, "market".str] then .ok crossedCards else .error (.unavailable [])

/-- It is answered with the cards of the first one, which are of no schema but the two. -/
theorem crossed_permitted : ∃ cards : List (SchemaCard Nat),
    run (step 300 buildCards (scopeKey Crates.plain)) (start (crossedDb [])) crossed =
        some crossedWorld ∧
      Answered crossedWorld ["star".str, "market".str] crossedCards 5 5 205 ∧
      getSchemaCards SchemaCard.fqname (userSchemas crossedEnv) crossedOutcome
        [("scope".str, .string "star,secret, market".str)] =
          .ok (toValue SchemaCard.fqname cards) ∧
      ∀ card ∈ cards, ∃ schema table,
        card.fqname = schema ++ '.' :: table ∧ schema ∈ userSchemas crossedEnv := by
  have goes : (run (step 300 buildCards (scopeKey Crates.plain)) (start (crossedDb []))
      crossed).isSome = true := by decide +kernel
  have ran : run (step 300 buildCards (scopeKey Crates.plain)) (start (crossedDb [])) crossed =
      some crossedWorld := by
    obtain ⟨w, ends⟩ := Option.isSome_iff_exists.mp goes
    rw [crossedWorld, ends, Option.getD_some]
  have answered : Answered crossedWorld ["star".str, "market".str] crossedCards 5 5 205 := by
    decide +kernel
  have calls : ∀ scope, Label.call scope ∈ crossed → scope = ["market".str, "star".str] ∨
      scope = ["star".str] ∨ scope = ["star".str, "market".str] := by
    intro scope member
    simpa [crossed] using member
  have tools : ∀ scope, Label.call scope ∈ crossed →
      ∃ args, asked (userSchemas crossedEnv) args = some scope := by
    intro scope member
    rcases calls scope member with rfl | rfl | rfl
    · exact ⟨[], by decide +kernel⟩
    · exact ⟨[("scope".str, .string "star".str)], by decide +kernel⟩
    · exact ⟨[("scope".str, .string "star,market".str)], by decide +kernel⟩
  have apart : ∀ scope scope', Label.call scope ∈ crossed → Label.call scope' ∈ crossed →
      scopeKey Crates.plain scope = scopeKey Crates.plain scope' →
      normalised scope = normalised scope' := by
    intro scope scope' member member' same
    rcases calls scope member with rfl | rfl | rfl <;>
      rcases calls scope' member' with rfl | rfl | rfl
    · rfl
    · exact absurd same (by decide +kernel)
    · decide +kernel
    · exact absurd same (by decide +kernel)
    · rfl
    · exact absurd same (by decide +kernel)
    · decide +kernel
    · exact absurd same (by decide +kernel)
    · rfl
  have outcomes : ∀ scope cards, crossedOutcome scope = .ok cards →
      ∃ built stored moment, Answered crossedWorld scope cards built stored moment := by
    intro scope cards same
    rw [crossedOutcome] at same
    split_ifs at same with third
    obtain rfl := Except.ok.inj same
    exact third ▸ ⟨5, 5, 205, answered⟩
  have shown : getSchemaCards SchemaCard.fqname (userSchemas crossedEnv) crossedOutcome
      [("scope".str, .string "star,secret, market".str)] =
      .ok (toValue SchemaCard.fqname crossedCards) := by
    have asks : asked (userSchemas crossedEnv) [("scope".str, .string "star,secret, market".str)] =
        some ["star".str, "market".str] := by decide +kernel
    rw [getSchemaCards, asks]
    rfl
  obtain ⟨-, cards, same, permitted⟩ := cards_permitted ran tools apart outcomes shown
  refine ⟨cards, ran, answered, same ▸ shown, fun card member => ?_⟩
  obtain ⟨schema, table, named, -, allowed, -⟩ := permitted card member
  exact ⟨schema, table, named, allowed (by decide +kernel)⟩

end LumidPlatform.Agent.SchemaCards
