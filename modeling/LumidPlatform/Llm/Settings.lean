import LumidPlatform.Read.Exec
import Mathlib.Data.List.DropRight

/-!
# Settings of the proxy

The settings are read from the environment once, at the start. Lists and maps are written in
one variable each, and what is malformed in them is skipped, so that what remains is trimmed.
-/

namespace LumidPlatform.Llm

open LumidPlatform.Read.Exec (Peer)

/-- `env_var`: the variables of the environment, without their prefix `LUMID_`. -/
abbrev Env := Str → Option Str

def Env.str (env : Env) (name default : Str) : Str := (env name).getD default

/-- `parse::<u32>`. -/
def parseU32 (s : Str) : Option Nat :=
  (Text.parseDigits ((Text.stripPrefix s ['+']).getD s)).filter (· < 2 ^ 32)

def Env.u32 (env : Env) (name : Str) (default : Nat) : Nat :=
  ((env name).bind parseU32).getD default

/-- Entries `key=value` that semicolons separate. -/
def entries (raw : Str) : List (Str × Str) :=
  (raw.splitOn ';').filterMap (fun entry => Text.splitOnce '=' (Text.trim entry))

/-- The variable that holds the token of a peer. -/
def tokenVar (unicode : Unicode) (id : Str) : Str :=
  "PEER_".str ++
    (unicode.toUppercase id).map (fun c => if Text.isAsciiAlphanumeric c then c else '_') ++
    "_TOKEN".str

/-- `parse_peers`. -/
def parsePeers (unicode : Unicode) (raw : Str) (env : Env) : List Peer :=
  (entries raw).filterMap (fun entry =>
    let id := Text.trim entry.1
    let url := Text.trimEndMatches '/' (Text.trim entry.2)
    if id.isEmpty || url.isEmpty then none
    else some ⟨id, url, (env (tokenVar unicode id)).getD []⟩)

/-- What the proxy reads of the settings. -/
structure Settings where
  llmBackendUrl : Str
  llmDefaultModel : Str
  llmBackends : List (Str × List Str)
  llmBackendMaxConcurrency : Nat
  llmBackendQueueRoof : Nat
  llmShortPromptTokens : Nat
  llmHedgeAfterS : Nat
  llmOpenrouterUrl : Str
  llmOpenrouterKey : Str
  llmOpenrouterModelMap : HashMap Str
  llmApiKey : Str
  llmFederate : Option Str
  peers : List Peer

def parseBackends (raw : Str) : List (Str × List Str) :=
  ((entries raw).map (fun entry =>
    (Text.trim entry.1, ((entry.2.splitOn ',').map
      (fun url => Text.trimEndMatches '/' (Text.trim url))).filter (fun url => !url.isEmpty)))).filter
    (fun entry => !entry.1.isEmpty && !entry.2.isEmpty)

def parseModelMap (raw : Str) : HashMap Str :=
  mapOf (((entries raw).map (fun entry => (Text.trim entry.1, Text.trim entry.2))).filter
    (fun entry => !entry.1.isEmpty && !entry.2.isEmpty))

/-- `Settings::from_env`. -/
def Settings.fromEnv (unicode : Unicode) (env : Env) : Settings where
  llmBackendUrl := env.str "LLM_BACKEND_URL".str []
  llmDefaultModel := env.str "LLM_DEFAULT_MODEL".str []
  llmBackends := parseBackends (env.str "LLM_BACKENDS".str [])
  llmBackendMaxConcurrency := env.u32 "LLM_BACKEND_MAX_CONCURRENCY".str 16
  llmBackendQueueRoof := env.u32 "LLM_BACKEND_QUEUE_ROOF".str 1
  llmShortPromptTokens := env.u32 "LLM_SHORT_PROMPT_TOKENS".str 0
  llmHedgeAfterS := env.u32 "LLM_HEDGE_AFTER_S".str 0
  llmOpenrouterUrl := Text.trimEndMatches '/' (env.str "LLM_OPENROUTER_URL".str [])
  llmOpenrouterKey := env.str "LLM_OPENROUTER_KEY".str []
  llmOpenrouterModelMap := parseModelMap (env.str "LLM_OPENROUTER_MODEL_MAP".str [])
  llmApiKey := env.str "LLM_API_KEY".str []
  llmFederate := ((env "LLM_FEDERATE".str).map Text.trim).filter (fun id => !id.isEmpty)
  peers := parsePeers unicode (env.str "PEERS".str []) env

/-! ## Trimmed keys -/

/-- Trimming twice is trimming once: what is left begins and ends with no white space. -/
theorem trim_trim (s : Str) : Text.trim (Text.trim s) = Text.trim s := by
  have start : Text.trimStart (Text.trim s) = Text.trim s := by
    apply List.dropWhile_eq_self_iff.mpr
    intro nonempty
    have inside : Text.trim s <+: Text.trimStart s := List.rdropWhile_prefix _ _
    have longer : 0 < (Text.trimStart s).length := nonempty.trans_le inside.length_le
    have first : (Text.trim s)[0] = (Text.trimStart s)[0] := inside.getElem nonempty
    rw [first]
    exact List.dropWhile_get_zero_not _ _ _
  have back : Text.trimEnd (Text.trim s) = Text.trim s :=
    List.rdropWhile_idempotent Text.isWhitespace (Text.trimStart s)
  calc Text.trim (Text.trim s) = Text.trimEnd (Text.trimStart (Text.trim s)) := rfl
    _ = Text.trimEnd (Text.trim s) := by rw [start]
    _ = Text.trim s := back

theorem mem_mapOf {V : Type} {pairs : List (Str × V)} {key : Str} (member : key ∈ mapOf pairs) :
    ∃ value, (key, value) ∈ pairs := by
  have folded : ∀ map : HashMap V,
      key ∈ pairs.foldl (fun map pair => map.insert pair.1 pair.2) map →
        key ∈ map ∨ ∃ value, (key, value) ∈ pairs := by
    clear member
    induction pairs with
    | nil => exact fun map inside => Or.inl inside
    | cons pair rest inductionHypothesis =>
      intro map inside
      rcases inductionHypothesis (map.insert pair.1 pair.2) inside with early | ⟨value, later⟩
      · rcases (AList.mem_insert map).mp early with rfl | before
        · exact Or.inr ⟨pair.2, List.mem_cons_self⟩
        · exact Or.inl before
      · exact Or.inr ⟨value, List.mem_cons_of_mem _ later⟩
  rcases folded ∅ member with none | found
  · exact absurd none (AList.notMem_empty key)
  · exact found

/-- The keys of the map are trimmed, and none is empty. -/
theorem parseModelMap_keys {raw key : Str} (member : key ∈ parseModelMap raw) :
    Text.trim key = key ∧ key ≠ [] := by
  obtain ⟨value, listed⟩ := mem_mapOf member
  simp only [List.mem_filter, List.mem_map, Bool.and_eq_true, Bool.not_eq_true',
    List.isEmpty_eq_false_iff] at listed
  obtain ⟨⟨entry, -, same⟩, nonempty, -⟩ := listed
  obtain ⟨rfl, rfl⟩ := Prod.mk.inj same
  exact ⟨trim_trim entry.1, nonempty⟩

end LumidPlatform.Llm
