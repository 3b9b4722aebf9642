import LumidPlatform.Llm.Dispatch

/-!
# The metered upstream

OpenRouter is contacted on five ways: for a model without backend, when all backends of a model
are full or down, when none of them can be reached for an answer or for a stream, and by the
hedge of a stream. Each way has its own test of the model.

Whom a request goes to is told by the address that it is posted to. An operator may list the
address of OpenRouter as that of a backend or of a peer, and it is then asked like any other one;
where none is listed so, the five tests are the only way there.
-/

namespace LumidPlatform.Llm.Metered

open Transitions
open LumidPlatform.Read.Exec (Peer)

variable {deployment : Deployment} {network : Network} {loads : Loads}
  {identity : Option Identity} {path : Str} {body : Json}

/-- The model that a request names may be served by OpenRouter for this caller, and what is
sent carries the id it is mapped to. -/
def Allowed (deployment : Deployment) (loads : Loads) (identity : Option Identity) (body : Json)
    (sent : Payload) : Prop :=
  ∃ id mapped forwarded, modelOf body = some id ∧
    deployment.settings.llmOpenrouterModelMap.lookup id = some mapped ∧
    Text.startsWith (Text.toAsciiLowercase id) "claude-".str = false ∧
    (deployment.pool.backendsFor loads (some id) ≠ [] ∨
      callerRole identity ∈ ["admin".str, "super_admin".str, "local".str]) ∧
    sent = .json forwarded ∧ member forwarded "model".str = some (.string mapped)

/-- An address at OpenRouter: the configured one, and whatever follows it. -/
def AtOpenrouter (deployment : Deployment) (url : Str) : Prop :=
  deployment.pool.openrouterUrl ≠ [] ∧ deployment.pool.openrouterUrl <+: url

instance (url : Str) : Decidable (AtOpenrouter deployment url) :=
  inferInstanceAs (Decidable (_ ∧ _))

/-- Neither a backend of the roster, nor the primary one, nor the peer that requests are
forwarded to is at OpenRouter. -/
structure Apart (deployment : Deployment) (path : Str) : Prop where
  backends : ∀ model, ∀ handle ∈ deployment.pool.handlesOf model,
    ¬AtOpenrouter deployment (handle.url ++ path)
  peer : ∀ peer, federationPeer deployment = .ok (some peer) →
    ¬AtOpenrouter deployment (Text.trimEndMatches '/' peer.baseUrl ++ path)

/-- The contacts of a dispatch, with those of its stream in any run of it. -/
inductive Contacted (dispatched : Dispatched) (contact : Contact) : Prop where
  | sent (member : contact ∈ dispatched.contacts)
  | hedged {handle : BackendHandle} {start reached : StreamTask}
      (streams : dispatched.reply = .stream handle start)
      (reaches : Reaches StreamTask.step start reached) (member : contact ∈ reached.contacts)

/-- A dispatch contacts OpenRouter only where that is allowed. -/
def OnlyAllowed (deployment : Deployment) (loads : Loads) (identity : Option Identity)
    (body : Json) (dispatched : Dispatched) : Prop :=
  ∀ contact, Contacted dispatched contact → AtOpenrouter deployment contact.url →
    Allowed deployment loads identity body contact.body

/-- A dispatch contacts OpenRouter in no case. -/
def NeverMetered (deployment : Deployment) (dispatched : Dispatched) : Prop :=
  ∀ contact, Contacted dispatched contact → ¬AtOpenrouter deployment contact.url

/-! ## Models -/

/-- The test of an optional value, as a proposition. -/
theorem any_eq_true {α : Type} {option : Option α} {test : α → Bool} :
    option.any test = true ↔ ∃ value, option = some value ∧ test value = true := by
  cases option with
  | none => simp
  | some value => simp

/-- The id of a body is trimmed already where it is a key of the map. -/
theorem modelOf_of_mapped {id : Str} (written : (member body "model".str).bind Json.asStr? = some id)
    (mapped : id ∈ deployment.settings.llmOpenrouterModelMap) : modelOf body = some id := by
  obtain ⟨trimmed, nonempty⟩ := parseModelMap_keys mapped
  rw [modelOf, written, Option.map_some, trimmed, Option.filter_some,
    if_pos (by simpa using nonempty)]

/-- A member that is set is found. -/
theorem get_insert (members : JsonMap) (key : Str) (value : Json) :
    JsonMap.get (JsonMap.insert key value members) key = some value := by
  rw [JsonMap.get]
  induction members with
  | nil => simp [JsonMap.insert]
  | cons entry rest inductionHypothesis =>
    rw [JsonMap.insert]
    by_cases same : entry.1 = key
    · simp [same]
    · rw [if_neg same, List.lookup_cons, beq_false_of_ne (Ne.symm same)]
      exact inductionHypothesis

/-- The body of a mapped model names the model that it is mapped to. -/
theorem rewritten_model {id mapped : Str} (named : modelOf body = some id)
    (entry : deployment.settings.llmOpenrouterModelMap.lookup id = some mapped) :
    member (rewriteModelForOpenrouter deployment.settings body) "model".str =
      some (.string mapped) := by
  rw [rewriteModelForOpenrouter, named, Option.bind_some, entry]
  cases body with
  | object members =>
    dsimp only
    rw [member, Json.asObject?, Option.bind_some, get_insert]
  | null | bool | number | string | array => simp [modelOf, member, Json.asObject?] at named

/-- A request whose model may go to OpenRouter. -/
structure Entitled (deployment : Deployment) (identity : Option Identity) (body : Json) (id : Str) :
    Prop where
  named : modelOf body = some id
  mapped : id ∈ deployment.settings.llmOpenrouterModelMap
  other : isClaude id = false
  served : deployment.pool.handlesOf (some id) ≠ [] ∨
    roleMayUseMeteredOpenrouterModel (callerRole identity) = true

/-- A rewritten body may be sent for a caller who is entitled. -/
theorem Entitled.allowed {id : Str} (entitled : Entitled deployment identity body id) :
    Allowed deployment loads identity body
      (.json (rewriteModelForOpenrouter deployment.settings body)) := by
  obtain ⟨mapped, entry⟩ := Option.isSome_iff_exists.mp (AList.lookup_isSome.mpr entitled.mapped)
  refine ⟨id, mapped, _, entitled.named, entry, entitled.other, ?_, rfl,
    rewritten_model entitled.named entry⟩
  rcases entitled.served with serves | role
  · left
    rw [BackendPool.backendsFor, ne_eq, BackendPool.backendsForClass_eq_nil]
    exact serves
  · right
    simpa [roleMayUseMeteredOpenrouterModel, or_assoc] using role

/-! ## Resolution -/

/-- A resolution that succeeds is not for a Claude model. -/
theorem resolve_other {model : Option Str} {role : Str} {short : Bool}
    {resolved : Option (List BackendHandle)}
    (ok : resolve deployment loads model role short = .ok resolved) :
    ∀ id, model = some id → isClaude id = false := by
  rintro id rfl
  rw [resolve] at ok
  split at ok
  · cases ok
  · rename_i other
    simpa using other

/-- The class of a request only decides the order of the backends, not whether there are any. -/
theorem isEmpty_iff_handlesOf {model : Option Str} {short : Bool} :
    (deployment.pool.backendsForClass loads model short).isEmpty = true ↔
      deployment.pool.handlesOf model = [] := by
  rw [List.isEmpty_iff, BackendPool.backendsForClass_eq_nil]

/-- So a resolution to backends is for a model that has some. -/
theorem resolve_backends {model : Option Str} {role : Str} {short : Bool}
    {backends : List BackendHandle}
    (ok : resolve deployment loads model role short = .ok (some backends)) :
    deployment.pool.handlesOf model ≠ [] := by
  intro none
  rw [resolve] at ok
  split at ok
  · cases ok
  · dsimp only at ok
    rw [isEmpty_iff_handlesOf.mpr none] at ok
    simp only [Bool.not_true, Bool.false_eq_true, if_false] at ok
    split at ok
    · split at ok
      · split at ok
        · cases ok
        · cases ok
      · cases ok
    · cases ok

/-- The backends that are resolved are some of their model. -/
theorem resolve_among {model : Option Str} {role : Str} {short : Bool}
    {backends : List BackendHandle}
    (ok : resolve deployment loads model role short = .ok (some backends)) :
    ∀ handle ∈ backends, handle ∈ deployment.pool.handlesOf model := by
  rw [resolve] at ok
  split at ok
  · cases ok
  · dsimp only at ok
    split at ok
    · split at ok
      · cases ok
      · obtain rfl := Option.some.inj (Except.ok.inj ok)
        exact fun handle => (deployment.pool.backendsForClass_perm loads model short).mem_iff.mp
    · split at ok
      · split at ok
        · split at ok
          · cases ok
          · cases ok
        · cases ok
      · cases ok

/-- OpenRouter serves mapped models only. -/
theorem serves_mapped {id : Str} (serves : openrouterServes
    deployment.settings.llmOpenrouterModelMap deployment.pool.openrouterUrl id = true) :
    id ∈ deployment.settings.llmOpenrouterModelMap := by
  rw [openrouterServes, Bool.and_eq_true, decide_eq_true_eq] at serves
  exact serves.2

/-- What is resolved to OpenRouter may go there. -/
theorem resolve_openrouter {short : Bool}
    (ok : resolve deployment loads (modelOf body) (callerRole identity) short = .ok none) :
    ∃ id, Entitled deployment identity body id := by
  have other := resolve_other ok
  rw [resolve] at ok
  split at ok
  · cases ok
  dsimp only at ok
  split at ok
  · rename_i serves
    have present : deployment.pool.handlesOf (modelOf body) ≠ [] := by
      rw [Bool.not_eq_true'] at serves
      intro none
      rw [isEmpty_iff_handlesOf.mpr none] at serves
      cases serves
    split at ok
    · rename_i spills
      rw [Bool.and_eq_true] at spills
      obtain ⟨id, named, serves⟩ := any_eq_true.mp spills.2
      exact ⟨id, named, serves_mapped serves, other id named, Or.inl (named ▸ present)⟩
    · cases ok
  · split at ok
    · rename_i id named
      split at ok
      · rename_i serves
        split at ok
        · cases ok
        · rename_i role
          exact ⟨id, named, serves_mapped serves, other id named, Or.inr (by simpa using role)⟩
      · cases ok
    · cases ok

/-- What is resolved to backends may overflow to OpenRouter if its model is mapped. -/
theorem entitled_of_backends {short : Bool} {backends : List BackendHandle} {id : Str}
    (ok : resolve deployment loads (modelOf body) (callerRole identity) short =
      .ok (some backends))
    (named : modelOf body = some id) (mapped : id ∈ deployment.settings.llmOpenrouterModelMap) :
    Entitled deployment identity body id :=
  ⟨named, mapped, resolve_other ok id named, Or.inl (named ▸ resolve_backends ok)⟩

/-! ## Contacts -/

/-- The loop sends its request to backends from the front of the list, and to nobody else. -/
theorem tryBackends_contacts (network : Network) (retry503 : Bool) (request : BackendHandle → Contact)
    (handles : List BackendHandle) (attempts : Attempts) :
    ∃ tried, tried <+: handles ∧
      (tryBackends network retry503 request handles attempts).1.contacts =
        attempts.contacts ++ tried.map request := by
  induction handles generalizing attempts with
  | nil => exact ⟨[], List.nil_prefix, by simp [tryBackends]⟩
  | cons handle rest inductionHypothesis =>
    have further (again : Attempts)
        (grown : again.contacts = attempts.contacts ++ [request handle]) :
        ∃ tried, tried <+: handle :: rest ∧
          (tryBackends network retry503 request rest again).1.contacts =
            attempts.contacts ++ tried.map request := by
      obtain ⟨tried, inside, contacts⟩ := inductionHypothesis again
      refine ⟨handle :: tried, (List.cons_prefix_cons).mpr ⟨rfl, inside⟩, ?_⟩
      rw [contacts, grown]
      simp
    rw [tryBackends]
    split
    · exact further _ rfl
    · split
      · exact further _ rfl
      · exact ⟨[handle], (List.cons_prefix_cons).mpr ⟨rfl, List.nil_prefix⟩, rfl⟩

/-- Of backends that are not at OpenRouter no contact is. -/
theorem apart_of_tried (network : Network) (loads : Loads) (retry503 : Bool) (payload : Payload)
    {handles : List BackendHandle}
    (apart : ∀ handle ∈ handles, ¬AtOpenrouter deployment (handle.url ++ path)) :
    ∀ contact ∈ (tryBackends network retry503 (backendContact deployment path payload) handles
      ⟨[], loads, none⟩).1.contacts, ¬AtOpenrouter deployment contact.url := by
  intro contact sent
  obtain ⟨tried, front, contacts⟩ := tryBackends_contacts network retry503
    (backendContact deployment path payload) handles ⟨[], loads, none⟩
  rw [contacts, List.nil_append] at sent
  obtain ⟨handle, member, rfl⟩ := List.mem_map.mp sent
  exact apart handle (front.subset member)

/-- The backends of a resolved request are not at OpenRouter. -/
theorem Apart.resolved (apart : Apart deployment path) {model : Option Str} {role : Str}
    {short : Bool} {backends : List BackendHandle}
    (ok : resolve deployment loads model role short = .ok (some backends)) :
    ∀ handle ∈ backends, ¬AtOpenrouter deployment (handle.url ++ path) :=
  fun handle member => apart.backends model handle (resolve_among ok handle member)

/-- A stream contacts nobody but its hedge. -/
theorem planned {plan : Option Contact} {reached : StreamTask} {contact : Contact}
    (reaches : Reaches StreamTask.step (StreamTask.start plan) reached)
    (member : contact ∈ reached.contacts) : plan = some contact := by
  have kept : reached.plan = plan ∧ ∀ contact ∈ reached.contacts, plan = some contact := by
    apply reaches.invariant
    · exact ⟨rfl, by simp [StreamTask.start]⟩
    · rintro task event next ⟨same, all⟩ taken
      obtain ⟨plan', nobody | ⟨hedge, planned, contacts⟩⟩ := StreamTask.step_contacts taken
      · rw [nobody]
        exact ⟨plan'.trans same, all⟩
      · refine ⟨plan'.trans same, fun contact listed => ?_⟩
        rw [contacts] at listed
        rcases List.mem_append.mp listed with before | last
        · exact all contact before
        · rw [List.mem_singleton.mp last, ← same, planned]
  exact kept.2 contact member

/-- A hedge is planned for a mapped model that was resolved for the caller. -/
theorem hedgePlan_allowed {short : Bool} {backends : List BackendHandle} {contact : Contact}
    (ok : resolve deployment loads (modelOf body) (callerRole identity) short =
      .ok (some backends))
    (plan : hedgePlan deployment path body = some contact) :
    Allowed deployment loads identity body contact.body := by
  rw [hedgePlan] at plan
  split at plan
  · split at plan
    · cases plan
    · rename_i mapped
      obtain rfl := Option.some.inj plan
      rw [Bool.or_eq_true, not_or, Bool.not_eq_true', Bool.not_eq_false, modelIsMapped] at mapped
      obtain ⟨id, written, listed⟩ := any_eq_true.mp mapped.2
      have listed : id ∈ deployment.settings.llmOpenrouterModelMap := of_decide_eq_true listed
      exact (entitled_of_backends ok (modelOf_of_mapped written listed) listed).allowed
  · cases plan

/-! ## The dispatches -/

/-- Without a stream, what is sent before the reply is all that is sent. -/
theorem onlyAllowed_of_settled {dispatched : Dispatched}
    (settled : ∀ handle task, dispatched.reply ≠ .stream handle task)
    (sent : ∀ contact ∈ dispatched.contacts, AtOpenrouter deployment contact.url →
      Allowed deployment loads identity body contact.body) :
    OnlyAllowed deployment loads identity body dispatched := by
  intro contact contacted metered
  cases contacted with
  | sent member => exact sent contact member metered
  | hedged streams => exact absurd streams (settled _ _)

/-- The same for requests that nothing metered may be sent for. -/
theorem neverMetered_of_settled {dispatched : Dispatched}
    (settled : ∀ handle task, dispatched.reply ≠ .stream handle task)
    (sent : ∀ contact ∈ dispatched.contacts, ¬AtOpenrouter deployment contact.url) :
    NeverMetered deployment dispatched := by
  intro contact contacted
  cases contacted with
  | sent member => exact sent contact member
  | hedged streams => exact absurd streams (settled _ _)

/-- The last contact is to OpenRouter and allowed, those before it were not to it. -/
theorem spilled_allowed {attempts : Attempts}
    (tried : ∀ contact ∈ attempts.contacts, ¬AtOpenrouter deployment contact.url) {id : Str}
    (entitled : Entitled deployment identity body id) :
    ∀ contact ∈ attempts.contacts ++ [openrouterContact deployment path
      (rewriteModelForOpenrouter deployment.settings body)], AtOpenrouter deployment contact.url →
        Allowed deployment loads identity body contact.body := by
  intro contact member metered
  rcases List.mem_append.mp member with before | last
  · exact absurd metered (tried contact before)
  · rw [List.mem_singleton.mp last]
    exact entitled.allowed

/-- A relayed reply is no stream. -/
theorem relayJson_settled (crates : Crates) (truncated nonJson : Str) (answer : Answer)
    (handle : BackendHandle) (task : StreamTask) :
    relayJson crates truncated nonJson answer ≠ .stream handle task := by
  rw [relayJson]
  split
  · simp
  · split
    · simp
    · simp

/-- The overflow of a JSON request sends the rewritten body of an entitled caller. -/
theorem proxyJsonOpenrouter_allowed {attempts : Attempts}
    (tried : ∀ contact ∈ attempts.contacts, ¬AtOpenrouter deployment contact.url) {id : Str}
    (entitled : Entitled deployment identity body id) :
    OnlyAllowed deployment loads identity body (proxyJsonOpenrouter deployment network path
      (rewriteModelForOpenrouter deployment.settings body) attempts) := by
  rw [proxyJsonOpenrouter]
  split
  · exact onlyAllowed_of_settled (by simp) (spilled_allowed tried entitled)
  · exact onlyAllowed_of_settled (relayJson_settled _ _ _ _) (spilled_allowed tried entitled)

/-- So does that of a stream. -/
theorem proxyStreamOpenrouter_allowed {attempts : Attempts}
    (tried : ∀ contact ∈ attempts.contacts, ¬AtOpenrouter deployment contact.url) {id : Str}
    (entitled : Entitled deployment identity body id) :
    OnlyAllowed deployment loads identity body (proxyStreamOpenrouter deployment network path
      (rewriteModelForOpenrouter deployment.settings body) attempts) := by
  rw [proxyStreamOpenrouter]
  split
  · exact onlyAllowed_of_settled (by simp) (spilled_allowed tried entitled)
  · split
    · exact onlyAllowed_of_settled (by simp) (spilled_allowed tried entitled)
    · exact onlyAllowed_of_settled (by simp) (spilled_allowed tried entitled)

/-- Contacts with other addresses need no permission. -/
theorem allowed_of_apart {contacts : List Contact}
    (tried : ∀ contact ∈ contacts, ¬AtOpenrouter deployment contact.url) :
    ∀ contact ∈ contacts, AtOpenrouter deployment contact.url →
      Allowed deployment loads identity body contact.body :=
  fun contact member metered => absurd metered (tried contact member)

/-- Backends, overflow and hedge in turn: where the backends are apart, only the last two are at
OpenRouter. -/
theorem proxyJson_allowed (apart : Apart deployment path) {short : Bool}
    {backends : List BackendHandle}
    (ok : resolve deployment loads (modelOf body) (callerRole identity) short =
      .ok (some backends)) :
    OnlyAllowed deployment loads identity body
      (proxyJson deployment network backends path body loads) := by
  have tried := apart_of_tried network loads true (.json body) (apart.resolved ok)
  rw [proxyJson]
  split
  · rename_i attempts handle answer outcome
    rw [outcome] at tried
    exact onlyAllowed_of_settled (relayJson_settled _ _ _ _) (allowed_of_apart tried)
  · rename_i attempts outcome
    rw [outcome] at tried
    split
    · rename_i spills
      obtain ⟨id, named, serves⟩ := any_eq_true.mp spills
      exact proxyJsonOpenrouter_allowed tried (entitled_of_backends ok named (serves_mapped serves))
    · refine onlyAllowed_of_settled (fun _ _ => ?_) (allowed_of_apart tried)
      dsimp only
      split
      · simp
      · simp
      · simp

/-- The same for a stream, whose task may go on to contact somebody. -/
theorem proxyStream_allowed (apart : Apart deployment path) {short : Bool}
    {backends : List BackendHandle}
    (ok : resolve deployment loads (modelOf body) (callerRole identity) short =
      .ok (some backends)) :
    OnlyAllowed deployment loads identity body
      (proxyStream deployment network backends path body loads) := by
  have tried := apart_of_tried network loads true (.json body) (apart.resolved ok)
  rw [proxyStream]
  split
  · rename_i attempts handle answer outcome
    rw [outcome] at tried
    split
    · exact onlyAllowed_of_settled (by simp) (allowed_of_apart tried)
    · intro contact contacted metered
      cases contacted with
      | sent member => exact allowed_of_apart tried contact member metered
      | hedged streams reaches member =>
        obtain ⟨-, rfl⟩ := Reply.stream.inj streams
        exact hedgePlan_allowed ok (planned reaches member)
  · rename_i attempts outcome
    rw [outcome] at tried
    split
    · rename_i serves
      have mapped := serves_mapped serves
      cases named : modelOf body with
      | none =>
        rw [named] at mapped
        exact absurd rfl (parseModelMap_keys mapped).2
      | some id =>
        rw [named] at mapped
        exact proxyStreamOpenrouter_allowed tried (entitled_of_backends ok named mapped)
    · exact onlyAllowed_of_settled (by simp) (allowed_of_apart tried)

/-- A body that is passed on unread goes to the backends alone. -/
theorem proxyOpaque_never (unreachable truncated exhausted defaultType : Str) (payload : Payload)
    {backends : List BackendHandle}
    (apart : ∀ handle ∈ backends, ¬AtOpenrouter deployment (handle.url ++ path)) :
    NeverMetered deployment (proxyOpaque deployment network unreachable truncated exhausted
      defaultType path payload backends loads) := by
  have tried := apart_of_tried network loads false payload apart
  rw [proxyOpaque]
  split
  · rename_i attempts handle answer outcome
    rw [outcome] at tried
    refine neverMetered_of_settled (fun _ _ => ?_) tried
    dsimp only
    split
    · simp
    · simp
  · rename_i attempts outcome
    rw [outcome] at tried
    exact neverMetered_of_settled (by simp) tried

/-- A request that is refused sends nothing. -/
theorem nobody_allowed (reply : Reply) (settled : ∀ handle task, reply ≠ .stream handle task) :
    OnlyAllowed deployment loads identity body ⟨[], loads, reply⟩ :=
  onlyAllowed_of_settled settled (by simp)

/-- The same for requests that nothing metered may be sent for. -/
theorem nobody_never (reply : Reply) (settled : ∀ handle task, reply ≠ .stream handle task) :
    NeverMetered deployment ⟨[], loads, reply⟩ :=
  neverMetered_of_settled settled (by simp)

/-- A peer at another address is no contact with OpenRouter. -/
theorem peer_allowed {peer : Peer} {reply : Reply}
    (apart : ¬AtOpenrouter deployment (Text.trimEndMatches '/' peer.baseUrl ++ path))
    (settled : ∀ handle task, reply ≠ .stream handle task) :
    OnlyAllowed deployment loads identity body ⟨[peerContact peer path body], loads, reply⟩ := by
  refine onlyAllowed_of_settled settled fun contact member metered => ?_
  rw [List.mem_singleton.mp member] at metered
  exact absurd metered apart

/-- A dispatched JSON body meets the rule. The cases are those of the dispatch. -/
theorem dispatchJson_allowed (apart : Apart deployment path) :
    OnlyAllowed deployment loads identity body
      (dispatchJson deployment network loads identity path body) := by
  rw [dispatchJson]
  split
  · exact nobody_allowed _ (by simp)
  · rename_i peer forwarded
    have other := apart.peer peer forwarded
    rw [proxyJsonPeer]
    split
    · rename_i timedOut _
      cases timedOut
      · exact peer_allowed other (by simp)
      · exact peer_allowed other (by simp)
    · exact peer_allowed other (relayJson_settled _ _ _ _)
  · split
    · exact nobody_allowed _ (by simp)
    · rename_i ok
      obtain ⟨id, entitled⟩ := resolve_openrouter ok
      exact proxyJsonOpenrouter_allowed (by simp) entitled
    · rename_i ok
      exact proxyJson_allowed apart ok

/-- The same for a stream. -/
theorem dispatchStream_allowed (apart : Apart deployment path) :
    OnlyAllowed deployment loads identity body
      (dispatchStream deployment network loads identity path body) := by
  rw [dispatchStream]
  split
  · exact nobody_allowed _ (by simp)
  · rename_i peer forwarded
    have other := apart.peer peer forwarded
    rw [proxyStreamPeer]
    split
    · exact peer_allowed other (by simp)
    · split
      · exact peer_allowed other (by simp)
      · exact peer_allowed other (by simp)
  · split
    · exact nobody_allowed _ (by simp)
    · rename_i ok
      obtain ⟨id, entitled⟩ := resolve_openrouter ok
      exact proxyStreamOpenrouter_allowed (by simp) entitled
    · rename_i ok
      exact proxyStream_allowed apart ok

/-- A reply of bytes is never asked of OpenRouter: its dispatch has no overflow. -/
theorem dispatchBytes_never (apart : Apart deployment path) :
    NeverMetered deployment (dispatchBytes deployment network loads identity path body) := by
  rw [dispatchBytes]
  split
  · exact nobody_never _ (by simp)
  · exact nobody_never _ (by simp)
  · rename_i ok
    exact proxyOpaque_never _ _ _ _ _ (apart.resolved ok)

/-- Nor is a transcription, whatever is in its form. -/
theorem audioTranscriptions_never (apart : Apart deployment "/v1/audio/transcriptions".str)
    (contentType : Str) (form : Bytes) :
    NeverMetered deployment
      (audioTranscriptions deployment network loads identity contentType form) := by
  rw [audioTranscriptions]
  split
  · exact nobody_never _ (by simp)
  · split
    · exact nobody_never _ (by simp)
    · split
      · exact nobody_never _ (by simp)
      · exact nobody_never _ (by simp)
      · rename_i ok
        exact proxyOpaque_never _ _ _ _ _ (apart.resolved ok)

/-- Where no backend and no peer is at OpenRouter, it is contacted only for a mapped model that is
no Claude model and that a backend serves or the caller may have billed, under the id it is mapped
to, and for sounds never. -/
theorem metered_only_allowed (deployment : Deployment) (network : Network) (loads : Loads)
    (identity : Option Identity) (path : Str) (body : Json) (contentType : Str) (form : Bytes)
    (apart : Apart deployment path)
    (heard : Apart deployment "/v1/audio/transcriptions".str) :
    OnlyAllowed deployment loads identity body
        (dispatchJson deployment network loads identity path body) ∧
      OnlyAllowed deployment loads identity body
        (dispatchStream deployment network loads identity path body) ∧
      NeverMetered deployment (dispatchBytes deployment network loads identity path body) ∧
      NeverMetered deployment
        (audioTranscriptions deployment network loads identity contentType form) :=
  ⟨dispatchJson_allowed apart, dispatchStream_allowed apart, dispatchBytes_never apart,
    audioTranscriptions_never heard contentType form⟩

/-- An operator maps one model that a backend serves. -/
def mappedOnce : Deployment :=
  ⟨Crates.plain, fun name =>
    List.lookup name [("LLM_OPENROUTER_URL".str, "https://openrouter.ai/api/".str),
      ("LLM_OPENROUTER_MODEL_MAP".str, "coder = qwen/qwen3-coder".str),
      ("LLM_BACKEND_URL".str, "http://gpu".str)]⟩

/-- The addresses of the example are apart. -/
theorem mappedOnce_apart (path : Str) : Apart mappedOnce path where
  backends := by
    intro model handle member
    have one : handle.url = "http://gpu".str := by
      have all : ∀ handle ∈ mappedOnce.pool.primary.toList, handle.url = "http://gpu".str := by
        decide +kernel
      have none : mappedOnce.pool.byModel = ∅ := rfl
      rw [BackendPool.handlesOf, none] at member
      cases model with
      | none => exact all handle member
      | some m => exact all handle member
    have there : mappedOnce.pool.openrouterUrl = "https://openrouter.ai/api".str := by
      decide +kernel
    rw [one]
    rintro ⟨-, ⟨rest, same⟩⟩
    rw [there] at same
    have fifth := congr_arg (fun url : Str => url[4]?) same
    rw [List.getElem?_append_left (by decide), List.getElem?_append_left (by decide)] at fifth
    exact absurd fifth (by decide)
  peer := by
    intro peer forwarded
    cases forwarded

/-- A request that its backend cannot take spills, and is allowed to. -/
theorem mappedOnce_spills :
    ∃ contact, Contacted (dispatchJson mappedOnce (fun _ => .failed false) (fun _ => Load.initial)
        none "/v1/embeddings".str (.object [("model".str, .string " coder".str)])) contact ∧
      contact.url = "https://openrouter.ai/api/v1/embeddings".str ∧
      Allowed mappedOnce (fun _ => Load.initial) none
        (.object [("model".str, .string " coder".str)]) contact.body := by
  have urls : (dispatchJson mappedOnce (fun _ => .failed false) (fun _ => Load.initial) none
      "/v1/embeddings".str (.object [("model".str, .string " coder".str)])).contacts.map
        Contact.url =
      ["http://gpu/v1/embeddings".str, "https://openrouter.ai/api/v1/embeddings".str] := by
    decide +kernel
  obtain ⟨contact, member, url⟩ :=
    List.mem_map.mp (urls ▸ List.mem_cons_of_mem _ List.mem_cons_self)
  have there : AtOpenrouter mappedOnce contact.url := by
    rw [url]
    decide +kernel
  exact ⟨contact, .sent member, url, (metered_only_allowed mappedOnce (fun _ => .failed false)
    (fun _ => Load.initial) none "/v1/embeddings".str (.object [("model".str, .string " coder".str)])
    [] [] (mappedOnce_apart _) (mappedOnce_apart _)).1 contact (.sent member) there⟩

/-- An operator lists OpenRouter as the backend of a model that is not mapped. -/
def listedThere : Deployment :=
  ⟨Crates.plain, fun name =>
    List.lookup name [("LLM_OPENROUTER_URL".str, "https://openrouter.ai/api".str),
      ("LLM_BACKENDS".str, "coder=https://openrouter.ai/api".str)]⟩

/-- That backend is asked, and OpenRouter with it. -/
theorem listedThere_metered : ¬∀ (deployment : Deployment) (network : Network) (loads : Loads)
    (identity : Option Identity) (path : Str) (body : Json) (contentType : Str) (form : Bytes),
    OnlyAllowed deployment loads identity body
        (dispatchJson deployment network loads identity path body) ∧
      OnlyAllowed deployment loads identity body
        (dispatchStream deployment network loads identity path body) ∧
      NeverMetered deployment (dispatchBytes deployment network loads identity path body) ∧
      NeverMetered deployment
        (audioTranscriptions deployment network loads identity contentType form) := by
  intro always
  have urls : (dispatchJson listedThere (fun _ => .failed false) (fun _ => Load.initial) none
      "/v1/embeddings".str (.object [("model".str, .string "coder".str)])).contacts.map
        Contact.url = ["https://openrouter.ai/api/v1/embeddings".str] := by
    decide +kernel
  obtain ⟨contact, member, url⟩ := List.mem_map.mp (urls ▸ List.mem_cons_self)
  have there : AtOpenrouter listedThere contact.url := by
    rw [url]
    decide +kernel
  obtain ⟨id, mapped, -, -, entry, -⟩ := (always listedThere (fun _ => .failed false)
    (fun _ => Load.initial) none "/v1/embeddings".str (.object [("model".str, .string "coder".str)])
    [] []).1 contact (.sent member) there
  have unmapped : listedThere.settings.llmOpenrouterModelMap = ∅ := rfl
  rw [unmapped, AList.lookup_empty] at entry
  cases entry

end LumidPlatform.Llm.Metered
