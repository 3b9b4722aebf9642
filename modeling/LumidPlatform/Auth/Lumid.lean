import LumidPlatform.Auth
import LumidPlatform.Error
import LumidPlatform.Auth.Concurrency

/-!
# Tokens

A request is authenticated by a key of the configuration, or by a token that the identity
service is asked about. What the service says is kept in a cache under the digest of the token,
both that it is known and that it is not. The asking takes time: a request waits until the
service's answer is there, and others come and go meanwhile.
-/

namespace LumidPlatform.Auth.Lumid

/-- `IntrospectData`. -/
structure IntrospectData where
  sub : Option Str := none
  role : Option Str := none
  active : Bool := false
  scopes : Option (List Str) := none

/-- `IntrospectBody`: the data under its own key, or bare. -/
structure IntrospectBody extends IntrospectData where
  data : Option IntrospectData := none

/-- What the body tells. -/
def IntrospectBody.told (body : IntrospectBody) : IntrospectData :=
  body.data.getD body.toIntrospectData

/-- Settings, and the reader of the service's answers. -/
structure Site where
  crates : Crates
  enabled : Bool := true
  localKeys : HashMap Str := ∅
  /-- `Response::json` into an `IntrospectBody`. -/
  readBody : Bytes → Option IntrospectBody

/-- What sending the token comes to. The body is not there where reading it fails. -/
inductive Sent where
  | failed (cause : Str)
  | response (status : Nat) (body : Option Bytes)

/-- The cache of a `LumidClient`: an identity, or that there is none. -/
abbrev Cache := HashMap (Option Identity)

/-- `looks_like_token`. -/
def looksLikeToken (token : Str) : Bool :=
  !token.isEmpty &&
    (Text.startsWith token "lm_pat_live_".str || Text.startsWith token "rm_pat_live_".str ||
      ((token.splitOn '.').length = 3 && (token.splitOn '.').all (fun part => !part.isEmpty)))

/-- `hash`. -/
def hash (site : Site) (token : Str) : Str := site.crates.sha256Hex (Text.utf8 token)

/-- `introspect` before the token is sent: the answer, unless it has to be. -/
def remembered (site : Site) (cache : Cache) (token : Str) : Option (Option Identity) :=
  if !site.enabled || !looksLikeToken token then some none
  else cache.lookup (hash site token)

/-- The identity of an active token. -/
def identityOf (told : IntrospectData) : Identity :=
  ⟨told.sub.getD [], told.role.getD "user".str, told.scopes.getD []⟩

/-- `introspect` once the token is sent: the cache, and the answer; an error is the service's
being unreachable. -/
def settle (site : Site) (cache : Cache) (token : Str) :
    Sent → Cache × Except Str (Option Identity)
  | .failed cause => (cache, .error cause)
  | .response status body =>
    if status ≠ 200 then (cache.insert (hash site token) none, .ok none)
    else
      match body.bind site.readBody with
      | none => (cache, .ok none)
      | some read =>
        if !read.told.active then (cache.insert (hash site token) none, .ok none)
        else
          (cache.insert (hash site token) (some (identityOf read.told)),
            .ok (some (identityOf read.told)))

/-- `extract_token`. -/
def extractToken (headers : HeaderMap) : Option Str :=
  let key := ((headerText headers "x-api-key".str).map Text.trim).filter (fun k => !k.isEmpty)
  key.orElse fun _ =>
    (headerText headers "authorization".str).bind fun auth =>
      (Text.splitOnce ' ' auth).bind fun parts =>
        if Text.toAsciiLowercase parts.1 = "bearer".str ∧ (Text.trim parts.2).isEmpty = false then
          some (Text.trim parts.2)
        else none

/-- The identity of a configured key. -/
def localIdentity (label : Str) : Identity := ⟨"local:".str ++ label, "local".str, []⟩

/-- `resolve_identity` on the answer of `introspect`. -/
def conclude : Except Str (Option Identity) → ApiResult (Option Identity)
  | .ok (some identity) => .ok (some identity)
  | .ok none => .error (.unauthorized "invalid or unknown token".str)
  | .error _ => .error (.unavailable "auth service unreachable".str)

/-- What a request comes to at once. -/
inductive Begun where
  | answered (result : ApiResult (Option Identity))
  /-- The token is sent to the service. -/
  | asks (token : Str)

/-- `resolve_identity`, up to where the token is sent. -/
def resolveIdentity (site : Site) (cache : Cache) (headers : HeaderMap) : Begun :=
  match extractToken headers with
  | none => .answered (.ok none)
  | some token =>
    match site.localKeys.lookup token with
    | some label => .answered (.ok (some (localIdentity label)))
    | none =>
      match remembered site cache token with
      | some found => .answered (conclude (.ok found))
      | none => .asks token

/-! ## Running -/

/-- The cache, the tokens that are being asked about, and what was said about which so far. -/
structure State where
  cache : Cache := ∅
  waiting : List Str := []
  replied : List (Str × Sent) := []

inductive Label where
  | request (headers : HeaderMap)
  /-- The asking of a waiting request comes to something. -/
  | reply (i : Nat) (sent : Sent)
  /-- The client of a waiting request is gone. -/
  | gone (i : Nat)
  /-- An entry of the cache is too old, or there are too many. -/
  | expire (key : Str)

/-- A request arrives. -/
def State.ask (site : Site) (state : State) (headers : HeaderMap) : State :=
  match resolveIdentity site state.cache headers with
  | .answered _ => state
  | .asks token => { state with waiting := state.waiting ++ [token] }

def step (site : Site) (state : State) : Label → Option State
  | .request headers => some (state.ask site headers)
  | .reply i sent =>
    (state.waiting[i]?).map fun token =>
      { cache := (settle site state.cache token sent).1
        waiting := state.waiting.eraseIdx i
        replied := (token, sent) :: state.replied }
  | .gone i =>
    (state.waiting[i]?).map fun _ => { state with waiting := state.waiting.eraseIdx i }
  | .expire key => some { state with cache := state.cache.erase key }

/-- What `resolve_identity` answers in a step, and on which token. -/
def answer (site : Site) (state : State) : Label → Option (Str × ApiResult (Option Identity))
  | .request headers =>
    match extractToken headers, resolveIdentity site state.cache headers with
    | some token, .answered result => some (token, result)
    | _, _ => none
  | .reply i sent =>
    (state.waiting[i]?).map fun token =>
      (token, conclude (settle site state.cache token sent).2)
  | .gone _ => none
  | .expire _ => none

end LumidPlatform.Auth.Lumid
