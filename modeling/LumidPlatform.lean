import LumidPlatform.Lib.Sha256
import LumidPlatform.Text
import LumidPlatform.Numbers
import LumidPlatform.Crates
import LumidPlatform.Error
import LumidPlatform.Read.Ir
import LumidPlatform.Read.Spec
import LumidPlatform.Read.Dialect
import LumidPlatform.Read.Bind
import LumidPlatform.Read.SqlFromSpec
import LumidPlatform.Read.Cache
import LumidPlatform.Read.Exec
import LumidPlatform.Lib.Joined
import LumidPlatform.Read.CanonicalKey
import LumidPlatform.Read.TenantScope
import LumidPlatform.Read.Elevation
import LumidPlatform.Read.SharedResponses
import LumidPlatform.Lib.Transitions
import LumidPlatform.Read.CacheRuns
import LumidPlatform.Read.Freshness
import LumidPlatform.Read.CompletedBodies
import LumidPlatform.Lib.SqlLexer
import LumidPlatform.Retrieve.Plan
import LumidPlatform.Retrieve.Guard
import LumidPlatform.Blobs.Keys
import LumidPlatform.Blobs.Serve
import LumidPlatform.Retrieve.Materialize
import LumidPlatform.Retrieve.Replayer
import LumidPlatform.Blobs.Privacy
import LumidPlatform.Retrieve.TenantReads
import LumidPlatform.Ingest.Idents
import LumidPlatform.Ingest.Proposals
import LumidPlatform.Ingest.Gate
import LumidPlatform.Ingest.WriteAuthority
import LumidPlatform.Ingest.Core
import LumidPlatform.Sync.Inbox
import LumidPlatform.Lib.Keyset
import LumidPlatform.Sync.Ledger
import LumidPlatform.Sync.Push
import LumidPlatform.Sync.Delivered
import LumidPlatform.Sync.Transparency
import LumidPlatform.Sync.Replication
import LumidPlatform.Sync.RoundTrip
import LumidPlatform.Llm.Pool
import LumidPlatform.Llm.Hedge
import LumidPlatform.Llm.OneSide
import LumidPlatform.Llm.Dispatch
import LumidPlatform.Llm.Metered
import LumidPlatform.Federation.Routes
import LumidPlatform.Federation.Shadow
import LumidPlatform.Federation.LocalOnly
import LumidPlatform.Read.Parse
import LumidPlatform.Read.Fragments
import LumidPlatform.Ingest.AclCache
import LumidPlatform.Lib.Upsert
import LumidPlatform.Write.Engine
import LumidPlatform.Write.Idempotence
import LumidPlatform.Write.Lineage
import LumidPlatform.Write.NullCells
import LumidPlatform.Ingest.Created
import LumidPlatform.Ingest.Writable
import LumidPlatform.Ingest.Admission
import LumidPlatform.Ingest.Decisions
import LumidPlatform.Read.Lexical
import LumidPlatform.Read.Segments
import LumidPlatform.Read.Alignment
import LumidPlatform.Write.Chunks
import LumidPlatform.Ingest.Stream
import LumidPlatform.Lib.Delivery
import LumidPlatform.Lib.Switches
import LumidPlatform.Realtime.Hub
import LumidPlatform.Realtime.Bookkeeping
import LumidPlatform.Realtime.Demand
import LumidPlatform.Realtime.Streams
import LumidPlatform.Realtime.Takeover
import LumidPlatform.Auth.Concurrency
import LumidPlatform.Blobs.Listing
import LumidPlatform.Retrieve.Outputs
import LumidPlatform.Ingest.Replicas
import LumidPlatform.Write.Spelling
import LumidPlatform.Ingest.Targets
import LumidPlatform.Blobs.Write
import LumidPlatform.Blobs.Integrity
import LumidPlatform.Blobs.Inline
import LumidPlatform.Sync.Posted
import LumidPlatform.Sync.Paging
import LumidPlatform.Lib.EventStream
import LumidPlatform.Llm.Keepalive
import LumidPlatform.Sync.Peers
import LumidPlatform.Ingest.Closing
import LumidPlatform.Retrieve.Panics
import LumidPlatform.Read.Slices
import LumidPlatform.Read.Boot
import LumidPlatform.Lib.Csv
import LumidPlatform.Lib.SqlAppend
import LumidPlatform.Lib.SqlStatements
import LumidPlatform.Retrieve.CsvRows
import LumidPlatform.Retrieve.RowCap
import LumidPlatform.Ingest.Reports
import LumidPlatform.Lib.Multipart
import LumidPlatform.Llm.FormFields
import LumidPlatform.Llm.Interning
import LumidPlatform.Llm.Ordering
import LumidPlatform.Read.Bounds
import LumidPlatform.Read.LoadCheck
import LumidPlatform.Read.Placeholders
import LumidPlatform.Read.QueryStrings
import LumidPlatform.Realtime.SlowClients
import LumidPlatform.Write.JsonEachRow
import LumidPlatform.Auth.ConfiguredLimits
import LumidPlatform.Db.KeptCells
import LumidPlatform.Ingest.Advertised
import LumidPlatform.Ingest.FreshReads
import LumidPlatform.Read.Lifetimes
import LumidPlatform.Retrieve.RowValues
import LumidPlatform.Sync.PushReads
import LumidPlatform.Agent.AgentLoop
import LumidPlatform.Agent.Transcript
import LumidPlatform.Auth.AdmissionBounds
import LumidPlatform.Auth.Lumid
import LumidPlatform.Auth.Rejections
import LumidPlatform.Blobs.Dedup
import LumidPlatform.Catalog.NaturalKeys
import LumidPlatform.Export.Handler
import LumidPlatform.Export.Paging
import LumidPlatform.Lib.CopyCsv
import LumidPlatform.Mcp.Agreement
import LumidPlatform.Retrieve.PgArrays
import LumidPlatform.Write.CopyBytes
import LumidPlatform.Agent.SchemaCards
import LumidPlatform.Ingest.TableText
import LumidPlatform.Lib.Buckets
import LumidPlatform.Lib.ExpiringCounters
import LumidPlatform.Lib.FirstOffers
import LumidPlatform.Lib.Rounds
import LumidPlatform.Lib.Tallies
import LumidPlatform.Llm.Circuit
import LumidPlatform.Llm.ModelList
import LumidPlatform.Llm.Requests
import LumidPlatform.Realtime.FanOut
import LumidPlatform.Retrieve.Footprints
import LumidPlatform.Retrieve.Profile
import LumidPlatform.Usage.Metering
