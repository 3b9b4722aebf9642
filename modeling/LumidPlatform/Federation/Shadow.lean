import LumidPlatform.Error
import LumidPlatform.Read.Exec

/-!
# The shadow

A shadow instance has no data of its own: reads are forwarded to its peer before any handler
sees them, and good answers are kept for a while, by method, path and query. A few paths are
served by the instance itself.
-/

namespace LumidPlatform.Federation

open LumidPlatform.Read.Exec (Peer OriginIdentity)

/-- `LOCAL_ONLY_EXACT`. -/
def localOnlyExact : List Str := ["/health".str, "/metrics".str, "/openapi.json".str]

/-- `LOCAL_ONLY_PREFIX`. -/
def localOnlyPrefix : List Str :=
  ["/health/".str, "/v1/".str, "/me/blobs".str, "/blobs/tenants/".str]

/-- `is_local_only`. -/
def isLocalOnly (path : Str) : Bool :=
  if localOnlyExact.contains path || path = "/v1".str then true
  else localOnlyPrefix.any (Text.startsWith path)

/-- `is_local_retrieval_blob`. -/
def isLocalRetrievalBlob (path retrievalPrefix : Str) : Bool :=
  let pfx := Text.trimEndMatches '/' (retrievalPrefix.dropWhile (· == '/'))
  if pfx.isEmpty then false else Text.startsWith path ("/blobs/".str ++ pfx ++ ['/'])

inductive Method where
  | get
  | head
  | other (name : Str)
  deriving DecidableEq

def Method.show : Method → Str
  | get => "GET".str
  | head => "HEAD".str
  | other name => name

/-- A request that has passed the gate. -/
structure Request where
  method : Method
  path : Str
  query : Option Str
  identity : Option Identity

/-- The settings of the instance and its peers. A peer that cannot be reached has no answer. -/
structure Instance where
  readFederate : Option Str
  peer : Str → Option Peer
  retrievalPrefix : Str
  forwardParts : Peer → Method → Str → Option Str → OriginIdentity → Option Response

/-- `ShadowCache`: entries may be gone at any time. -/
abbrev ShadowCache := Str → Option Response

/-- `ShadowCache::key`. -/
def ShadowCache.key (method : Method) (path : Str) (query : Option Str) : Str :=
  match query with
  | some q => if q.isEmpty then method.show ++ ' ' :: path
    else method.show ++ ' ' :: path ++ '?' :: q
  | none => method.show ++ ' ' :: path

/-- By whom a request is answered. -/
inductive Served where
  | ownHandler
  | cached (response : Response)
  | forwarded (response : Response)
  | unreachable
  deriving DecidableEq

/-- `shadow_forward`. -/
def shadowForward (inst : Instance) (cache : ShadowCache) (request : Request) :
    Served × ShadowCache :=
  match inst.readFederate.bind inst.peer with
  | none => (.ownHandler, cache)
  | some peer =>
    if request.method ≠ .get && request.method ≠ .head then (.ownHandler, cache)
    else if isLocalOnly request.path || isLocalRetrievalBlob request.path inst.retrievalPrefix then
      (.ownHandler, cache)
    else
      let origin : OriginIdentity := match request.identity with
        | some identity => ⟨identity.sub, identity.role⟩
        | none => {}
      let key := ShadowCache.key request.method request.path request.query
      match if request.method = .get then cache key else none with
      | some hit => (.cached hit, cache)
      | none =>
        match inst.forwardParts peer request.method request.path request.query origin with
        | none => (.unreachable, cache)
        | some response => (.forwarded response,
            if request.method = .get && response.status = 200 then
              Function.update cache key (some response)
            else cache)

/-- What is served locally leaves the cache alone. -/
theorem shadowForward_local (inst : Instance) (cache : ShadowCache) (request : Request)
    (stays : isLocalOnly request.path = true) :
    shadowForward inst cache request = (.ownHandler, cache) := by
  rw [shadowForward]
  split
  · rfl
  · split
    · rfl
    · rw [if_pos (by simp [stays])]

end LumidPlatform.Federation
