import LumidPlatform.Blobs.Keys
import LumidPlatform.Read.Exec

/-!
# Routes

The router compares the path of a request segment by segment as it was sent, and decodes only
what a parameter takes. Some handlers answer each caller differently.
-/

namespace LumidPlatform.Federation

open LumidPlatform.Read.Spec LumidPlatform.Read.Exec

/-! ## Matching -/

/-- The parameters of a path, if it matches the segments of a pattern: `:name` takes one
segment, `*name` all that is left, and neither takes nothing. -/
def matchSegments : List Str → List Str → Option (List (Str × Str))
  | [], [] => some []
  | piece :: pieces, segment :: segments =>
    match piece with
    | ':' :: name =>
      if segment.isEmpty then none
      else (matchSegments pieces segments).map (fun params => (name, segment) :: params)
    | '*' :: name =>
      let rest := Text.join ['/'] (segment :: segments)
      if rest.isEmpty then none else some [(name, rest)]
    | _ => if piece = segment then matchSegments pieces segments else none
  | _, _ => none

def matchPath (pattern path : Str) : Option (List (Str × Str)) :=
  matchSegments (pattern.splitOn '/') (path.splitOn '/')

/-- The bytes of `percent_decode`. -/
def percentDecodeBytes : Bytes → Bytes
  | b :: high :: low :: rest =>
    if b = 37 then
      match hexPair high low with
      | some byte => byte :: percentDecodeBytes rest
      | none => b :: percentDecodeBytes (high :: low :: rest)
    else b :: percentDecodeBytes (high :: low :: rest)
  | b :: rest => b :: percentDecodeBytes rest
  | [] => []

/-- A parameter, as the handler gets it. -/
def percentDecode (s : Str) : Option Str := Text.fromUtf8 (percentDecodeBytes (Text.utf8 s))

/-! ## The table -/

/-- The routes behind the gate that can be read. -/
inductive Route where
  | schemas
  | schemaTables
  | tableProfile
  | writable
  | lineageRun
  | lineageRuns
  | lineageRow
  | sources
  | submitters
  | tableSchemaJson
  | usageMe
  | freshness
  | listProposals
  | getProposal
  | getExport
  | llmBackendStats
  | listBlobs
  | serveBlob
  | meBlobsList
  | meBlobsFetch
  | declared (spec : EndpointSpec)

def Route.pattern : Route → Str
  | schemas => "/catalog/schemas".str
  | schemaTables => "/catalog/schemas/:schema/tables".str
  | tableProfile => "/catalog/tables/:schema/:table".str
  | writable => "/catalog/ingress/writable".str
  | lineageRun => "/catalog/lineage/run/:run_id".str
  | lineageRuns => "/catalog/lineage/runs".str
  | lineageRow => "/catalog/lineage/row".str
  | sources => "/catalog/sources".str
  | submitters => "/catalog/submitters".str
  | tableSchemaJson => "/catalog/tables/:schema/:table/schema.json".str
  | usageMe => "/usage/me".str
  | freshness => "/freshness".str
  | listProposals => "/catalog/ingress/proposals".str
  | getProposal => "/catalog/ingress/proposals/:id".str
  | getExport => "/admin/export/:schema/:table".str
  | llmBackendStats => "/admin/llm-backend-stats".str
  | listBlobs => "/blobs".str
  | serveBlob => "/blobs/*key".str
  | meBlobsList => "/me/blobs".str
  | meBlobsFetch => "/me/blobs/:sha256".str
  | declared spec => spec.path

/-- The key of a blob, from the parameters of its route. -/
def blobKey (path : Str) : Option Str :=
  (((matchPath Route.serveBlob.pattern path).bind (List.lookup "key".str)).bind
    percentDecode).bind Blobs.sanitizeKey

/-- The answer of the handler depends on the identity of the caller. -/
def Route.askedByIdentity (path : Str) : Route → Bool
  | writable | lineageRuns | submitters | usageMe | getProposal | getExport | llmBackendStats
  | listBlobs | meBlobsList | meBlobsFetch => true
  | serveBlob => ((blobKey path).bind Blobs.tenantOwnerOf).isSome
  | declared spec => spec.selfTenant || spec.adminCrossTenant
  | _ => false

end LumidPlatform.Federation
