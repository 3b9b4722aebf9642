import LumidPlatform.Llm.Metered
import LumidPlatform.Llm.ModelList

/-!
# What the upstreams are sent

The handlers of the proxy put the default model into a body that names none, and one of them
puts the switch of Anthropic's clients where the backends look for it. What is dispatched then
reaches backends, OpenRouter under the id it has there, or a peer, whose handler of the same
path does the same once more. However many instances a body passes, it arrives as the client
wrote it in all but these two members.
-/

namespace LumidPlatform.Llm.Requests

open LumidPlatform.Llm.Metered (Contacted)
open LumidPlatform.Read.Exec (Peer)

/-! ## The handlers -/

/-- `require_object`. -/
def requireObject (body : Json) : ApiResult Json :=
  if body.asObject?.isSome then .ok body
  else .error (.badRequest "request body must be a JSON object".str)

/-- `apply_default_model`. -/
def applyDefaultModel (settings : Settings) (body : Json) : Json :=
  let needsDefault := match member body "model".str with
    | none | some .null => true
    | some (.string s) => s.isEmpty
    | some _ => false
  if needsDefault && !settings.llmDefaultModel.isEmpty then
    match body with
    | .object members =>
      .object (JsonMap.insert "model".str (.string settings.llmDefaultModel) members)
    | other => other
  else body

/-- `apply_thinking_control`. -/
def applyThinkingControl (body : Json) : Json :=
  let disabled := (((member body "thinking".str).bind (fun t => member t "type".str)).bind
    Json.asStr?).any (fun t => Text.toAsciiLowercase t = "disabled".str)
  if !disabled then body
  else
    match body with
    | .object members =>
      match (JsonMap.get members "chat_template_kwargs".str).getD (.object []) with
      | .object ctk =>
        let ctk := if (JsonMap.get ctk "thinking".str).isSome then ctk
          else JsonMap.insert "thinking".str (.bool false) ctk
        .object (JsonMap.insert "chat_template_kwargs".str (.object ctk) members)
      | _ => body
    | other => other

/-- `wants_stream`. -/
def wantsStream (body : Json) : Bool :=
  match member body "stream".str with
  | some (.bool true) => true
  | _ => false

section

variable (deployment : Deployment) (network : Network) (loads : Loads)
  (identity : Option Identity)

/-- What the handlers share: a body that is no object is refused. -/
def received (prepare : Json → Json) (dispatch : Json → Dispatched) (body : Json) : Dispatched :=
  match requireObject body with
  | .error error => ⟨[], loads, .error error⟩
  | .ok body => dispatch (prepare body)

/-- The body itself says which of the two forms is dispatched. -/
def streamedOrNot (path : Str) (body : Json) : Dispatched :=
  if wantsStream body then dispatchStream deployment network loads identity path body
  else dispatchJson deployment network loads identity path body

/-- `chat_completions`. -/
def chatCompletions : Json → Dispatched :=
  received loads (applyDefaultModel deployment.settings)
    (streamedOrNot deployment network loads identity "/v1/chat/completions".str)

/-- `completions`. -/
def completions : Json → Dispatched :=
  received loads (applyDefaultModel deployment.settings)
    (streamedOrNot deployment network loads identity "/v1/completions".str)

/-- `embeddings`. -/
def embeddings : Json → Dispatched :=
  received loads (applyDefaultModel deployment.settings)
    (dispatchJson deployment network loads identity "/v1/embeddings".str)

/-- `images_generations`. -/
def imagesGenerations : Json → Dispatched :=
  received loads (applyDefaultModel deployment.settings)
    (dispatchJson deployment network loads identity "/v1/images/generations".str)

/-- `audio_speech`. -/
def audioSpeech : Json → Dispatched :=
  received loads (applyDefaultModel deployment.settings)
    (dispatchBytes deployment network loads identity "/v1/audio/speech".str)

/-- `messages`. -/
def messages : Json → Dispatched :=
  received loads (fun body => applyThinkingControl (applyDefaultModel deployment.settings body))
    (streamedOrNot deployment network loads identity "/v1/messages".str)

/-- `count_tokens`. -/
def countTokens : Json → Dispatched :=
  received loads (applyDefaultModel deployment.settings)
    (dispatchJson deployment network loads identity "/v1/messages/count_tokens".str)

end

/-- The paths that take JSON. -/
inductive Endpoint where
  | chatCompletions
  | completions
  | embeddings
  | imagesGenerations
  | audioSpeech
  | messages
  | countTokens
  deriving DecidableEq

namespace Endpoint

/-- The path that is asked of the backend, and of a peer. -/
def path : Endpoint → Str
  | chatCompletions => "/v1/chat/completions".str
  | completions => "/v1/completions".str
  | embeddings => "/v1/embeddings".str
  | imagesGenerations => "/v1/images/generations".str
  | audioSpeech => "/v1/audio/speech".str
  | messages => "/v1/messages".str
  | countTokens => "/v1/messages/count_tokens".str

/-- The handler that the route leads to. -/
def handler : Endpoint → Deployment → Network → Loads → Option Identity → Json → Dispatched
  | chatCompletions => Requests.chatCompletions
  | completions => Requests.completions
  | embeddings => Requests.embeddings
  | imagesGenerations => Requests.imagesGenerations
  | audioSpeech => Requests.audioSpeech
  | messages => Requests.messages
  | countTokens => Requests.countTokens

/-- What a handler makes of the body. -/
def prepare (endpoint : Endpoint) (settings : Settings) (body : Json) : Json :=
  if endpoint = messages then applyThinkingControl (applyDefaultModel settings body)
  else applyDefaultModel settings body

end Endpoint

/-! ## What is to arrive -/

/-- No model is named: it is missing, null or empty. -/
def unnamed : Option Json → Bool
  | none | some .null | some (.string []) => true
  | some _ => false

/-- The model of a body, with a default put in where none is named. -/
def named (default : Str) (model : Option Json) : Option Json :=
  if unnamed model && default ≠ [] then some (.string default) else model

/-- The client has turned thinking off, in whatever case it wrote that. -/
def ThinkingOff (asked : JsonMap) : Prop :=
  ∃ thinking word, JsonMap.get asked "thinking".str = some thinking ∧
    member thinking "type".str = some (.string word) ∧
    Text.toAsciiLowercase word = "disabled".str

/-- The members of a template's arguments, if they are members of an object. -/
def Steered (before after : Option Json) : Prop :=
  (∀ other, before = some other → other.asObject? = none → after = before) ∧
    ∀ kwargs, before = none ∧ kwargs = [] ∨ before = some (.object kwargs) →
      ∃ kwargs', after = some (.object kwargs') ∧
        JsonMap.get kwargs' "thinking".str =
          some ((JsonMap.get kwargs "thinking".str).getD (.bool false)) ∧
        ∀ key, key ≠ "thinking".str → JsonMap.get kwargs' key = JsonMap.get kwargs key

/-- What a body is when it is dispatched. -/
structure Prepared (endpoint : Endpoint) (default : Str) (asked sent : JsonMap) : Prop where
  others : ∀ key, key ≠ "model".str → key ≠ "chat_template_kwargs".str →
    JsonMap.get sent key = JsonMap.get asked key
  model : JsonMap.get sent "model".str = named default (JsonMap.get asked "model".str)
  kept : endpoint ≠ .messages ∨ ¬ThinkingOff asked →
    JsonMap.get sent "chat_template_kwargs".str = JsonMap.get asked "chat_template_kwargs".str
  steered : endpoint = .messages → ThinkingOff asked →
    Steered (JsonMap.get asked "chat_template_kwargs".str)
      (JsonMap.get sent "chat_template_kwargs".str)

/-! ## Preparation -/

section

variable {settings : Settings} {asked : JsonMap}

/-- The handlers' test for a model is the test of `unnamed`. -/
theorem needsDefault_eq (model : Option Json) :
    (match model with
      | none | some .null => true
      | some (.string s) => s.isEmpty
      | some _ => false) = unnamed model := by
  rcases model with _ | _ | _ | _ | (_ | ⟨_, _⟩) | _ | _ <;> rfl

/-- A default model changes the model alone. -/
theorem applyDefaultModel_object (settings : Settings) (asked : JsonMap) :
    ∃ sent, applyDefaultModel settings (.object asked) = .object sent ∧
      JsonMap.get sent "model".str =
        named settings.llmDefaultModel (JsonMap.get asked "model".str) ∧
      ∀ key, key ≠ "model".str → JsonMap.get sent key = JsonMap.get asked key := by
  have written : member (.object asked) "model".str = JsonMap.get asked "model".str := rfl
  rw [applyDefaultModel, written]
  simp only [needsDefault_eq]
  rw [named]
  by_cases needs : unnamed (JsonMap.get asked "model".str) = true ∧ settings.llmDefaultModel ≠ []
  · rw [if_pos (by simp [needs]), if_pos (by simp [needs])]
    exact ⟨_, rfl, Metered.get_insert _ _ _, fun _ differs =>
      ModelList.get_insert_of_ne _ _ differs⟩
  · rw [if_neg (by simpa using needs), if_neg (by simpa using needs)]
    exact ⟨asked, rfl, rfl, fun _ _ => rfl⟩

/-- The handler's test finds thinking switched off exactly where the request says so, in any case.
-/
theorem thinkingOff_iff (asked : JsonMap) :
    (((member (.object asked) "thinking".str).bind (fun t => member t "type".str)).bind
      Json.asStr?).any (fun t => Text.toAsciiLowercase t = "disabled".str) = true ↔
      ThinkingOff asked := by
  rw [Metered.any_eq_true]
  simp only [Option.bind_eq_some_iff, decide_eq_true_eq]
  constructor
  · rintro ⟨word, ⟨⟨value, ⟨thinking, present, typed⟩, text⟩, off⟩⟩
    cases value with
    | string other =>
      obtain rfl := Option.some.inj text
      exact ⟨thinking, other, present, typed, off⟩
    | null | bool | number | array | object => cases text
  · rintro ⟨thinking, word, present, typed, off⟩
    exact ⟨word, ⟨_, ⟨thinking, present, typed⟩, rfl⟩, off⟩

/-- The switch changes the template's arguments alone, and them only where thinking is off. -/
theorem applyThinkingControl_object (asked : JsonMap) :
    ∃ sent, applyThinkingControl (.object asked) = .object sent ∧
      (∀ key, key ≠ "chat_template_kwargs".str →
        JsonMap.get sent key = JsonMap.get asked key) ∧
      (¬ThinkingOff asked → sent = asked) ∧
      (ThinkingOff asked → Steered (JsonMap.get asked "chat_template_kwargs".str)
        (JsonMap.get sent "chat_template_kwargs".str)) := by
  by_cases off : ThinkingOff asked
  · have shown := (thinkingOff_iff asked).mpr off
    rw [applyThinkingControl, shown]
    simp only [Bool.not_true, Bool.false_eq_true, if_false]
    cases before : (JsonMap.get asked "chat_template_kwargs".str).getD (.object []) with
    | object ctk =>
      refine ⟨_, rfl, fun key differs => ModelList.get_insert_of_ne _ _ differs,
        fun on => absurd off on, fun _ => ⟨fun other present plain => ?_, fun kwargs old => ?_⟩⟩
      · rw [present, Option.getD_some] at before
        rw [before] at plain
        cases plain
      · have same : kwargs = ctk := by
          rcases old with ⟨missing, rfl⟩ | present
          · rw [missing] at before
            exact Json.object.inj before
          · rw [present] at before
            exact Json.object.inj before
        subst same
        refine ⟨_, Metered.get_insert _ _ _, ?_, fun key differs => ?_⟩
        · split_ifs with set
          · obtain ⟨value, set⟩ := Option.isSome_iff_exists.mp set
            rw [set, Option.getD_some]
          · rw [Metered.get_insert, Option.not_isSome_iff_eq_none.mp set, Option.getD_none]
        · split_ifs
          · rfl
          · exact ModelList.get_insert_of_ne _ _ differs
    | null | bool | number | string | array =>
      refine ⟨asked, rfl, fun _ _ => rfl, fun _ => rfl, fun _ => ⟨fun _ _ _ => rfl,
        fun kwargs old => ?_⟩⟩
      rcases old with ⟨missing, -⟩ | present
      · rw [missing] at before
        cases before
      · rw [present] at before
        cases before
  · have shown := (Bool.not_eq_true _).mp (mt (thinkingOff_iff asked).mp off)
    rw [applyThinkingControl, shown]
    exact ⟨asked, rfl, fun _ _ => rfl, fun _ => rfl, fun on => absurd on off⟩

/-- Only the member `thinking` is read for it. -/
theorem ThinkingOff.congr {sent : JsonMap}
    (same : JsonMap.get sent "thinking".str = JsonMap.get asked "thinking".str) :
    ThinkingOff sent ↔ ThinkingOff asked := by
  rw [ThinkingOff, ThinkingOff, same]

/-- What a handler does to a body. -/
theorem prepared (endpoint : Endpoint) (settings : Settings) (asked : JsonMap) :
    ∃ sent, endpoint.prepare settings (.object asked) = .object sent ∧
      Prepared endpoint settings.llmDefaultModel asked sent := by
  obtain ⟨middle, defaulted, model, others⟩ := applyDefaultModel_object settings asked
  have template : "chat_template_kwargs".str ≠ "model".str := by decide
  have thinking : "thinking".str ≠ "model".str := by decide
  by_cases anthropic : endpoint = .messages
  · obtain ⟨sent, switched, rest, same, steered⟩ := applyThinkingControl_object middle
    have off := ThinkingOff.congr (others _ thinking)
    refine ⟨sent, by rw [Endpoint.prepare, if_pos anthropic, defaulted, switched],
      fun key notModel notTemplate => (rest key notTemplate).trans (others key notModel),
      (rest _ template.symm).trans model, fun plain => ?_, fun _ turned => ?_⟩
    · have on := plain.resolve_left (fun other => other anthropic)
      rw [same (mt off.mp on)]
      exact others _ template
    · rw [← others _ template]
      exact steered (off.mpr turned)
  · exact ⟨middle, by rw [Endpoint.prepare, if_neg anthropic, defaulted],
      fun key notModel _ => others key notModel, model, fun _ => others _ template,
      fun other => absurd other anthropic⟩

/-! ## Instances one after the other -/

/-- A default that is not empty names a model. -/
theorem unnamed_string {default : Str} (nonempty : default ≠ []) :
    unnamed (some (.string default)) = false := by
  cases default with
  | nil => exact absurd rfl nonempty
  | cons => rfl

/-- A later default is used only where the earlier one is empty. -/
theorem named_named (default later : Str) (model : Option Json) :
    named later (named default model) = named (if default = [] then later else default) model := by
  by_cases none : default = []
  · subst none
    rw [if_pos rfl, named.eq_def [], if_neg (by simp)]
  · rw [if_neg none, named.eq_def default]
    split_ifs with needs
    · rw [named, unnamed_string none, Bool.false_and, if_neg Bool.false_ne_true]
    · have own : unnamed model = false := by simpa [none] using needs
      rw [named, own, Bool.false_and, if_neg Bool.false_ne_true]

/-- What is steered once is steered. -/
theorem Steered.trans {before middle after : Option Json} (first : Steered before middle)
    (second : Steered middle after) : Steered before after := by
  refine ⟨fun other present plain => ?_, fun kwargs old => ?_⟩
  · obtain rfl := first.1 other present plain
    exact second.1 other present plain
  · obtain ⟨kwargs', between, thinking, others⟩ := first.2 kwargs old
    obtain ⟨kwargs'', last, thinking', others'⟩ := second.2 kwargs' (Or.inr between)
    refine ⟨kwargs'', last, ?_, fun key differs => (others' key differs).trans (others key differs)⟩
    rw [thinking', thinking, Option.getD_some]

/-- A body that two handlers prepare has the model of the first that has a default. -/
theorem Prepared.trans {endpoint : Endpoint} {default later : Str} {asked middle sent : JsonMap}
    (first : Prepared endpoint default asked middle)
    (second : Prepared endpoint later middle sent) :
    Prepared endpoint (if default = [] then later else default) asked sent := by
  have off : ThinkingOff middle ↔ ThinkingOff asked :=
    ThinkingOff.congr (first.others _ (by decide) (by decide))
  refine ⟨fun key notModel notTemplate => (second.others key notModel notTemplate).trans
    (first.others key notModel notTemplate), ?_, fun plain => ?_, fun anthropic turned => ?_⟩
  · rw [second.model, first.model, named_named]
  · rw [second.kept (plain.imp_right (mt off.mp)), first.kept plain]
  · exact (first.steered anthropic turned).trans (second.steered anthropic (off.mpr turned))

end

/-! ## Whom a dispatch asks, and what for -/

section

variable {deployment : Deployment} {network : Network} {loads : Loads}
  {identity : Option Identity} {path : Str} {body : Json}

/-- A request of a dispatch: each upstream has its own address, key and spelling of the model. -/
inductive Addressed (deployment : Deployment) (path : Str) (body : Json) : Contact → Prop where
  | backend {handle : BackendHandle}
      (serves : handle ∈ deployment.pool.handlesOf (modelOf body)) :
      Addressed deployment path body (backendContact deployment path (.json body) handle)
  | openrouter {id : Str} (named : modelOf body = some id)
      (mapped : id ∈ deployment.settings.llmOpenrouterModelMap) (bearer : Option Str)
      (key : bearer = deployment.settings.openrouterBearer ∨
        bearer = some deployment.settings.openrouterKey) :
      Addressed deployment path body ⟨.openrouter, deployment.pool.openrouterUrl ++ path, bearer,
        .json (rewriteModelForOpenrouter deployment.settings body)⟩
  | peer {peer : Peer} (configured : federationPeer deployment = .ok (some peer)) :
      Addressed deployment path body (peerContact peer path body)

/-- Every contact of a dispatch is a request for the body. -/
def AllAddressed (deployment : Deployment) (path : Str) (body : Json)
    (dispatched : Dispatched) : Prop :=
  ∀ contact, Contacted dispatched contact → Addressed deployment path body contact

/-- A request that is not handed to a stream contacts nobody after its reply, so its contacts are
all there are. -/
theorem addressed_of_settled {dispatched : Dispatched}
    (settled : ∀ handle task, dispatched.reply ≠ .stream handle task)
    (sent : ∀ contact ∈ dispatched.contacts, Addressed deployment path body contact) :
    AllAddressed deployment path body dispatched := by
  intro contact contacted
  cases contacted with
  | sent member => exact sent contact member
  | hedged streams => exact absurd streams (settled _ _)

/-- The backends that are resolved are those of the model. -/
theorem resolved_serve {model : Option Str} {role : Str} {short : Bool}
    {backends : List BackendHandle}
    (ok : resolve deployment loads model role short = .ok (some backends)) :
    ∀ handle ∈ backends, handle ∈ deployment.pool.handlesOf model := by
  have sorted : backends = deployment.pool.backendsForClass loads model short := by
    rw [resolve] at ok
    split at ok
    · cases ok
    · dsimp only at ok
      split at ok
      · split at ok
        · cases ok
        · exact (Option.some.inj (Except.ok.inj ok)).symm
      · split at ok
        · split at ok
          · split at ok
            · cases ok
            · cases ok
          · cases ok
        · cases ok
  intro handle member
  rw [sorted] at member
  exact (deployment.pool.backendsForClass_perm loads model short).mem_iff.mp member

/-- Every attempt goes to one of the backends of the model, by induction on the backends. -/
theorem tried_addressed {retry503 : Bool} {backends : List BackendHandle}
    (serve : ∀ handle ∈ backends, handle ∈ deployment.pool.handlesOf (modelOf body)) :
    ∀ contact ∈ (tryBackends network retry503 (backendContact deployment path (.json body))
      backends ⟨[], loads, none⟩).1.contacts, Addressed deployment path body contact := by
  intro contact sent
  obtain ⟨tried, front, contacts⟩ := Metered.tryBackends_contacts network retry503
    (backendContact deployment path (.json body)) backends ⟨[], loads, none⟩
  rw [contacts, List.nil_append] at sent
  obtain ⟨handle, member, rfl⟩ := List.mem_map.mp sent
  exact .backend (serve handle (front.subset member))

/-- One more contact with OpenRouter is addressed if the model is mapped. -/
theorem spilled_addressed {attempts : Attempts}
    (tried : ∀ contact ∈ attempts.contacts, Addressed deployment path body contact) {id : Str}
    (named : modelOf body = some id) (mapped : id ∈ deployment.settings.llmOpenrouterModelMap) :
    ∀ contact ∈ attempts.contacts ++ [openrouterContact deployment path
      (rewriteModelForOpenrouter deployment.settings body)],
      Addressed deployment path body contact := by
  intro contact member
  rcases List.mem_append.mp member with before | last
  · exact tried contact before
  · rw [List.mem_singleton.mp last]
    exact .openrouter named mapped _ (Or.inl rfl)

/-- The overflow of a JSON request is addressed if the model is mapped. -/
theorem proxyJsonOpenrouter_addressed {attempts : Attempts}
    (tried : ∀ contact ∈ attempts.contacts, Addressed deployment path body contact) {id : Str}
    (named : modelOf body = some id) (mapped : id ∈ deployment.settings.llmOpenrouterModelMap) :
    AllAddressed deployment path body (proxyJsonOpenrouter deployment network path
      (rewriteModelForOpenrouter deployment.settings body) attempts) := by
  rw [proxyJsonOpenrouter]
  split
  · exact addressed_of_settled (by simp) (spilled_addressed tried named mapped)
  · exact addressed_of_settled (Metered.relayJson_settled _ _ _ _)
      (spilled_addressed tried named mapped)

/-- So is the overflow of a stream. -/
theorem proxyStreamOpenrouter_addressed {attempts : Attempts}
    (tried : ∀ contact ∈ attempts.contacts, Addressed deployment path body contact) {id : Str}
    (named : modelOf body = some id) (mapped : id ∈ deployment.settings.llmOpenrouterModelMap) :
    AllAddressed deployment path body (proxyStreamOpenrouter deployment network path
      (rewriteModelForOpenrouter deployment.settings body) attempts) := by
  rw [proxyStreamOpenrouter]
  split
  · exact addressed_of_settled (by simp) (spilled_addressed tried named mapped)
  · split
    · exact addressed_of_settled (by simp) (spilled_addressed tried named mapped)
    · exact addressed_of_settled (by simp) (spilled_addressed tried named mapped)

/-- A hedge is planned for a mapped model only. -/
theorem hedgePlan_addressed {contact : Contact}
    (plan : hedgePlan deployment path body = some contact) :
    Addressed deployment path body contact := by
  rw [hedgePlan] at plan
  split at plan
  · split at plan
    · cases plan
    · rename_i mapped
      obtain rfl := Option.some.inj plan
      rw [Bool.or_eq_true, not_or, Bool.not_eq_true', Bool.not_eq_false, modelIsMapped] at mapped
      obtain ⟨id, written, listed⟩ := Metered.any_eq_true.mp mapped.2
      have listed : id ∈ deployment.settings.llmOpenrouterModelMap := of_decide_eq_true listed
      exact .openrouter (Metered.modelOf_of_mapped written listed) listed _ (Or.inr rfl)
  · cases plan

/-- The backends are tried, then the overflow, and then the hedge: whoever is contacted serves the
model. -/
theorem proxyJson_addressed {backends : List BackendHandle}
    (serve : ∀ handle ∈ backends, handle ∈ deployment.pool.handlesOf (modelOf body)) :
    AllAddressed deployment path body
      (proxyJson deployment network backends path body loads) := by
  have tried := @tried_addressed deployment network loads path body true backends serve
  rw [proxyJson]
  split
  · rename_i attempts handle answer outcome
    rw [outcome] at tried
    exact addressed_of_settled (Metered.relayJson_settled _ _ _ _) tried
  · rename_i attempts outcome
    rw [outcome] at tried
    split
    · rename_i spills
      obtain ⟨id, named, serves⟩ := Metered.any_eq_true.mp spills
      exact proxyJsonOpenrouter_addressed tried named (Metered.serves_mapped serves)
    · refine addressed_of_settled (fun _ _ => ?_) tried
      dsimp only
      split
      · simp
      · simp
      · simp

/-- The same for a stream, whose later contacts are those of its task. -/
theorem proxyStream_addressed {backends : List BackendHandle}
    (serve : ∀ handle ∈ backends, handle ∈ deployment.pool.handlesOf (modelOf body)) :
    AllAddressed deployment path body
      (proxyStream deployment network backends path body loads) := by
  have tried := @tried_addressed deployment network loads path body true backends serve
  rw [proxyStream]
  split
  · rename_i attempts handle answer outcome
    rw [outcome] at tried
    split
    · exact addressed_of_settled (by simp) tried
    · intro contact contacted
      cases contacted with
      | sent member => exact tried contact member
      | hedged streams reaches member =>
        obtain ⟨-, rfl⟩ := Reply.stream.inj streams
        exact hedgePlan_addressed (Metered.planned reaches member)
  · rename_i attempts outcome
    rw [outcome] at tried
    split
    · rename_i serves
      have mapped := Metered.serves_mapped serves
      cases named : modelOf body with
      | none =>
        rw [named] at mapped
        exact absurd rfl (parseModelMap_keys mapped).2
      | some id =>
        rw [named] at mapped
        exact proxyStreamOpenrouter_addressed tried named mapped
    · exact addressed_of_settled (by simp) tried

/-- A request that is refused contacts nobody. -/
theorem nobody_addressed (reply : Reply)
    (settled : ∀ handle task, reply ≠ .stream handle task) :
    AllAddressed deployment path body ⟨[], loads, reply⟩ :=
  addressed_of_settled settled (by simp)

/-- A configured peer is sent the body as it came. -/
theorem peer_addressed {peer : Peer} {reply : Reply}
    (configured : federationPeer deployment = .ok (some peer))
    (settled : ∀ handle task, reply ≠ .stream handle task) :
    AllAddressed deployment path body ⟨[peerContact peer path body], loads, reply⟩ :=
  addressed_of_settled settled (fun _ member =>
    List.mem_singleton.mp member ▸ .peer configured)

/-- What a dispatched JSON body is sent to serves its model. The cases are those of the dispatch. -/
theorem dispatchJson_addressed : AllAddressed deployment path body
    (dispatchJson deployment network loads identity path body) := by
  rw [dispatchJson]
  split
  · exact nobody_addressed _ (by simp)
  · rename_i configured
    rw [proxyJsonPeer]
    split
    · rename_i timedOut _
      cases timedOut
      · exact peer_addressed configured (by simp)
      · exact peer_addressed configured (by simp)
    · exact peer_addressed configured (Metered.relayJson_settled _ _ _ _)
  · split
    · exact nobody_addressed _ (by simp)
    · rename_i ok
      obtain ⟨id, entitled⟩ := Metered.resolve_openrouter ok
      exact proxyJsonOpenrouter_addressed (by simp) entitled.named entitled.mapped
    · rename_i ok
      exact proxyJson_addressed (resolved_serve ok)

/-- The same for a stream. -/
theorem dispatchStream_addressed : AllAddressed deployment path body
    (dispatchStream deployment network loads identity path body) := by
  rw [dispatchStream]
  split
  · exact nobody_addressed _ (by simp)
  · rename_i configured
    rw [proxyStreamPeer]
    split
    · exact peer_addressed configured (by simp)
    · split
      · exact peer_addressed configured (by simp)
      · exact peer_addressed configured (by simp)
  · split
    · exact nobody_addressed _ (by simp)
    · rename_i ok
      obtain ⟨id, entitled⟩ := Metered.resolve_openrouter ok
      exact proxyStreamOpenrouter_addressed (by simp) entitled.named entitled.mapped
    · rename_i ok
      exact proxyStream_addressed (resolved_serve ok)

/-- The same for a reply of bytes. -/
theorem dispatchBytes_addressed : AllAddressed deployment path body
    (dispatchBytes deployment network loads identity path body) := by
  rw [dispatchBytes]
  split
  · exact nobody_addressed _ (by simp)
  · exact nobody_addressed _ (by simp)
  · rename_i ok
    have tried := @tried_addressed deployment network loads path body false _ (resolved_serve ok)
    rw [proxyBytes, proxyOpaque]
    split
    · rename_i attempts handle answer outcome
      rw [outcome] at tried
      refine addressed_of_settled (fun _ _ => ?_) tried
      dsimp only
      split
      · simp
      · simp
    · rename_i attempts outcome
      rw [outcome] at tried
      exact addressed_of_settled (by simp) tried

/-- The same for either form. -/
theorem streamedOrNot_addressed : AllAddressed deployment path body
    (streamedOrNot deployment network loads identity path body) := by
  rw [streamedOrNot]
  split
  · exact dispatchStream_addressed
  · exact dispatchJson_addressed

/-- A handler contacts somebody only for an object, and as the dispatch of the prepared body. -/
theorem received_contacted {prepare : Json → Json} {dispatch : Json → Dispatched}
    {contact : Contact} (contacted : Contacted (received loads prepare dispatch body) contact) :
    ∃ asked, body = .object asked ∧ Contacted (dispatch (prepare body)) contact := by
  rw [received, requireObject] at contacted
  cases body with
  | object asked => exact ⟨asked, rfl, contacted⟩
  | null | bool | number | string | array =>
    cases contacted with
    | sent none => exact absurd none List.not_mem_nil
    | hedged streams => cases streams

/-- A handler asks for what it makes of the body, under its own path. -/
theorem handler_addressed {endpoint : Endpoint} {contact : Contact}
    (contacted : Contacted (endpoint.handler deployment network loads identity body) contact) :
    ∃ asked, body = .object asked ∧ Addressed deployment endpoint.path
      (endpoint.prepare deployment.settings body) contact := by
  cases endpoint with
  | chatCompletions | completions | messages =>
    obtain ⟨asked, same, dispatched⟩ := received_contacted contacted
    exact ⟨asked, same, streamedOrNot_addressed contact dispatched⟩
  | embeddings | imagesGenerations | countTokens =>
    obtain ⟨asked, same, dispatched⟩ := received_contacted contacted
    exact ⟨asked, same, dispatchJson_addressed contact dispatched⟩
  | audioSpeech =>
    obtain ⟨asked, same, dispatched⟩ := received_contacted contacted
    exact ⟨asked, same, dispatchBytes_addressed contact dispatched⟩

end

/-! ## Chains of instances -/

/-- How the body of a client arrives: as it was sent, or from an instance whose peer is next. -/
inductive Arrives (endpoint : Endpoint) (asked : Json) : List Deployment → Json → Prop where
  | client : Arrives endpoint asked [] asked
  | hop {hops : List Deployment} {body forwarded : Json} {deployment : Deployment}
      {network : Network} {loads : Loads} {identity : Option Identity} {contact : Contact}
      (before : Arrives endpoint asked hops body)
      (contacted : Contacted (endpoint.handler deployment network loads identity body) contact)
      (peer : contact.upstream = .peer) (carried : contact.body = .json forwarded) :
      Arrives endpoint asked (hops ++ [deployment]) forwarded

/-- The default model of the first instance that has one. -/
def firstDefault (deployments : List Deployment) : Str :=
  ((deployments.map (fun deployment => deployment.settings.llmDefaultModel)).find?
    (fun default => !default.isEmpty)).getD []

/-- What an upstream is sent of a client's body, where no model is replaced by the default. -/
structure AsAsked (endpoint : Endpoint) (default : Str) (deployment : Deployment)
    (asked sent : JsonMap) (contact : Contact) : Prop where
  others : ∀ key, key ≠ "model".str → key ≠ "chat_template_kwargs".str →
    JsonMap.get sent key = JsonMap.get asked key
  kept : endpoint ≠ .messages ∨ ¬ThinkingOff asked →
    JsonMap.get sent "chat_template_kwargs".str = JsonMap.get asked "chat_template_kwargs".str
  steered : endpoint = .messages → ThinkingOff asked →
    Steered (JsonMap.get asked "chat_template_kwargs".str)
      (JsonMap.get sent "chat_template_kwargs".str)
  /-- A backend of the model gets the model as it is, with the key of the backends. -/
  backend : contact.upstream = .backend →
    JsonMap.get sent "model".str = named default (JsonMap.get asked "model".str) ∧
    contact.bearer = deployment.settings.localBearer ∧
    ∃ handle ∈ deployment.pool.handlesOf (modelOf (.object sent)),
      contact.url = handle.url ++ endpoint.path
  /-- So does the peer, with the peer's own token. -/
  peer : contact.upstream = .peer →
    JsonMap.get sent "model".str = named default (JsonMap.get asked "model".str) ∧
    ∃ peer, federationPeer deployment = .ok (some peer) ∧
      contact.bearer = (if peer.token.isEmpty then none else some peer.token) ∧
      contact.url = Text.trimEndMatches '/' peer.baseUrl ++ endpoint.path
  /-- OpenRouter gets the id that the map has for the model, with the key of OpenRouter. -/
  openrouter : contact.upstream = .openrouter →
    contact.url = deployment.pool.openrouterUrl ++ endpoint.path ∧
    (contact.bearer = deployment.settings.openrouterBearer ∨
      contact.bearer = some deployment.settings.openrouterKey) ∧
    ∃ written mapped,
      named default (JsonMap.get asked "model".str) = some (.string written) ∧
      deployment.settings.llmOpenrouterModelMap.lookup (Text.trim written) = some mapped ∧
      JsonMap.get sent "model".str = some (.string mapped)

/-- The first default along a chain, where one more hop follows. -/
theorem firstDefault_append (hops : List Deployment) (deployment : Deployment) :
    firstDefault (hops ++ [deployment]) =
      if firstDefault hops = [] then deployment.settings.llmDefaultModel
      else firstDefault hops := by
  rw [firstDefault, firstDefault, List.map_append, List.find?_append]
  cases found : (hops.map (fun deployment => deployment.settings.llmDefaultModel)).find?
      (fun default => !default.isEmpty) with
  | none =>
    rw [Option.none_or, Option.getD_none, if_pos rfl, List.map_singleton]
    cases deployment.settings.llmDefaultModel with
    | nil => rfl
    | cons => rfl
  | some default =>
    have nonempty : default ≠ [] := by simpa using List.find?_some found
    rw [Option.some_or, Option.getD_some, if_neg nonempty]

/-- A model that is read off an object was written there, up to white space. -/
theorem modelOf_object {members : JsonMap} {id : Str} (same : modelOf (.object members) = some id) :
    ∃ written, JsonMap.get members "model".str = some (.string written) ∧
      Text.trim written = id := by
  rw [modelOf] at same
  obtain ⟨written, present⟩ := Option.map_eq_some_iff.mp (Option.filter_eq_some_iff.mp same).1
  obtain ⟨text, trimmed⟩ := present
  obtain ⟨value, got, string⟩ := Option.bind_eq_some_iff.mp text
  cases value with
  | string other =>
    obtain rfl := Option.some.inj string
    exact ⟨_, got, trimmed⟩
  | null | bool | number | array | object => cases string

/-- What is addressed carries what was prepared. -/
theorem Prepared.asAsked {endpoint : Endpoint} {default : Str} {deployment : Deployment}
    {asked ready : JsonMap} {contact : Contact} (prepared : Prepared endpoint default asked ready)
    (addressed : Addressed deployment endpoint.path (.object ready) contact) :
    ∃ sent, contact.body = .json (.object sent) ∧
      AsAsked endpoint default deployment asked sent contact := by
  cases addressed with
  | backend serves =>
    exact ⟨ready, rfl, prepared.others, prepared.kept, prepared.steered,
      fun _ => ⟨prepared.model, rfl, _, serves, rfl⟩, fun other => (nomatch other),
      fun other => nomatch other⟩
  | peer configured =>
    exact ⟨ready, rfl, prepared.others, prepared.kept, prepared.steered,
      fun other => (nomatch other), fun _ => ⟨prepared.model, _, configured, rfl, rfl⟩,
      fun other => nomatch other⟩
  | openrouter same mapped bearer key =>
    obtain ⟨orId, entry⟩ := Option.isSome_iff_exists.mp (AList.lookup_isSome.mpr mapped)
    obtain ⟨written, present, trimmed⟩ := modelOf_object same
    have template : "chat_template_kwargs".str ≠ "model".str := by decide
    refine ⟨JsonMap.insert "model".str (.string orId) ready, ?_, fun key notModel notTemplate => ?_,
      fun plain => ?_, fun anthropic off => ?_, fun other => (nomatch other),
      fun other => (nomatch other), fun _ => ⟨rfl, key, written, orId, ?_, ?_, ?_⟩⟩
    · rw [rewriteModelForOpenrouter, same, Option.bind_some, entry]
    · rw [ModelList.get_insert_of_ne _ _ notModel, prepared.others key notModel notTemplate]
    · rw [ModelList.get_insert_of_ne _ _ template, prepared.kept plain]
    · rw [ModelList.get_insert_of_ne _ _ template]
      exact prepared.steered anthropic off
    · rw [← prepared.model, present]
    · rw [trimmed, entry]
    · exact Metered.get_insert _ _ _

/-- Through any instances, a body stays the client's with the first default model. -/
theorem Arrives.prepared {endpoint : Endpoint} {asked body : Json} {hops : List Deployment}
    (arrives : Arrives endpoint asked hops body) {deployment : Deployment} {members : JsonMap}
    (object : body = .object members) :
    ∃ first ready, asked = .object first ∧
      endpoint.prepare deployment.settings body = .object ready ∧
      Prepared endpoint (firstDefault (hops ++ [deployment])) first ready := by
  induction arrives generalizing deployment members with
  | client =>
    obtain ⟨ready, prepares, prepared⟩ := Requests.prepared endpoint deployment.settings members
    refine ⟨members, ready, object, object ▸ prepares, ?_⟩
    rw [firstDefault_append]
    exact prepared
  | @hop hops body forwarded previous network loads identity contact before contacted peer carried
      inductionHypothesis =>
    obtain ⟨_, same, addressed⟩ := handler_addressed contacted
    obtain ⟨first, ready, client, prepares, prepared⟩ := inductionHypothesis same
    rw [prepares] at addressed
    cases addressed with
    | peer configured =>
      obtain rfl : forwarded = .object ready := (Payload.json.inj carried).symm
      obtain ⟨ready', prepares', prepared'⟩ :=
        Requests.prepared endpoint deployment.settings ready
      refine ⟨first, ready', client, prepares', ?_⟩
      rw [firstDefault_append]
      exact prepared.trans prepared'
    | backend => cases peer
    | openrouter => cases peer

/-- Whatever instances a client's body passes, and whoever is asked for it by the last of them,
at once, on a later attempt or as a hedge, what is sent is the client's own body, with the first
default model where it names none, the id of OpenRouter for OpenRouter, and thinking off in the
template where the client has it off. Each upstream is asked at its own address with its own
key, and of the backends only those of the model. -/
theorem sent_as_asked {endpoint : Endpoint} {asked body : Json} {hops : List Deployment}
    (arrives : Arrives endpoint asked hops body) {deployment : Deployment} {network : Network}
    {loads : Loads} {identity : Option Identity} {contact : Contact}
    (contacted : Contacted (endpoint.handler deployment network loads identity body) contact) :
    ∃ members sent, asked = .object members ∧ contact.body = .json (.object sent) ∧
      AsAsked endpoint (firstDefault (hops ++ [deployment])) deployment members sent contact := by
  obtain ⟨_, same, addressed⟩ := handler_addressed contacted
  obtain ⟨first, ready, client, prepares, prepared⟩ := arrives.prepared same
  rw [prepares] at addressed
  obtain ⟨sent, carried, exact⟩ := prepared.asAsked addressed
  exact ⟨first, sent, client, carried, exact⟩

/-- An instance that has no models of its own. -/
def edge : Deployment :=
  ⟨Crates.plain, fun name =>
    List.lookup name [("LLM_FEDERATE".str, "core".str), ("PEERS".str, "core=http://core".str)]⟩

/-- Its peer has a default model, which it maps. -/
def core : Deployment :=
  ⟨Crates.plain, fun name =>
    List.lookup name [("LLM_OPENROUTER_URL".str, "https://openrouter.ai/api/".str),
      ("LLM_OPENROUTER_MODEL_MAP".str, "coder = qwen/qwen3-coder".str),
      ("LLM_DEFAULT_MODEL".str, "coder".str)]⟩

/-- A request that switches thinking off, with a capital letter. -/
def unthinking : JsonMap :=
  [("thinking".str, .object [("type".str, .string "Disabled".str)]),
    ("max_tokens".str, .number (.int 8))]

/-- The same request as it is sent on. -/
def forwarded : JsonMap :=
  unthinking ++ [("chat_template_kwargs".str, .object [("thinking".str, .bool false)])]

/-- A network in which nobody answers. -/
def nobody : Network := fun _ => .failed false

/-- An edge sends it to its peer, and adds the backend's own switch. -/
theorem unthinking_contacted : Contacted (Endpoint.messages.handler edge nobody
    (fun _ => Load.initial) none (.object unthinking))
    (peerContact ⟨"core".str, "http://core".str, []⟩ "/v1/messages".str (.object forwarded)) := by
  have peer : (federationPeer edge).toOption =
      some (some ⟨"core".str, "http://core".str, []⟩) := by decide +kernel
  have configured : federationPeer edge = .ok (some ⟨"core".str, "http://core".str, []⟩) := by
    cases found : federationPeer edge with
    | error e =>
      rw [found] at peer
      cases peer
    | ok other =>
      rw [found] at peer
      rw [Option.some.inj peer]
  have default : edge.settings.llmDefaultModel = [] := by decide +kernel
  have same : applyThinkingControl (applyDefaultModel edge.settings (.object unthinking)) =
      .object forwarded := by
    rw [applyDefaultModel, default]
    rfl
  have streams : wantsStream (.object forwarded) = false := by decide
  refine .sent ?_
  change _ ∈ (streamedOrNot edge nobody (fun _ => Load.initial) none "/v1/messages".str
    (applyThinkingControl (applyDefaultModel edge.settings (.object unthinking)))).contacts
  rw [same, streamedOrNot, streams, if_neg Bool.false_ne_true, dispatchJson, configured]
  exact List.mem_singleton.mpr rfl

/-- OpenRouter gets the default model of the second instance, and thinking off. -/
theorem unthinking_sent : ∃ contact sent,
    Contacted (Endpoint.messages.handler core nobody (fun _ => Load.initial) none
      (.object forwarded)) contact ∧
    contact.url = "https://openrouter.ai/api/v1/messages".str ∧
    contact.body = .json (.object sent) ∧
    JsonMap.get sent "model".str = some (.string "qwen/qwen3-coder".str) ∧
    JsonMap.get sent "max_tokens".str = some (.number (.int 8)) ∧
    Steered none (JsonMap.get sent "chat_template_kwargs".str) := by
  have urls : (Endpoint.messages.handler core nobody (fun _ => Load.initial) none
      (.object forwarded)).contacts.map (fun contact => (contact.upstream, contact.url)) =
      [(.openrouter, "https://openrouter.ai/api/v1/messages".str)] := by decide +kernel
  obtain ⟨contact, member, shown⟩ := List.mem_map.mp (urls ▸ List.mem_singleton_self _)
  obtain ⟨upstream, url⟩ := Prod.mk.inj shown
  obtain ⟨members, sent, same, carried, exact⟩ :=
    sent_as_asked (.hop .client unthinking_contacted rfl rfl) (.sent member)
  obtain rfl := Json.object.inj same
  obtain ⟨-, -, written, mapped, model, entry, rewritten⟩ := exact.openrouter upstream
  have default : firstDefault ([] ++ [edge] ++ [core]) = "coder".str := by decide +kernel
  rw [default] at model
  obtain rfl := Json.string.inj (Option.some.inj model.symm)
  have map : core.settings.llmOpenrouterModelMap.lookup (Text.trim "coder".str) =
      some "qwen/qwen3-coder".str := by decide +kernel
  obtain rfl := Option.some.inj (entry.symm.trans map)
  exact ⟨contact, sent, .sent member, url, carried, rewritten,
    exact.others _ (by decide) (by decide),
    exact.steered rfl ⟨_, "Disabled".str, rfl, rfl, by decide⟩⟩

end LumidPlatform.Llm.Requests
