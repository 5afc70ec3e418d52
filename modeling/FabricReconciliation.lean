import FabricReconciliation.Acceptance
import FabricReconciliation.Agreement
import FabricReconciliation.Allocation
import FabricReconciliation.Authority
import FabricReconciliation.Canonical
import FabricReconciliation.Canonicity
import FabricReconciliation.Capacity
import FabricReconciliation.Causality
import FabricReconciliation.Chains
import FabricReconciliation.Classifier
import FabricReconciliation.Client
import FabricReconciliation.Codecs
import FabricReconciliation.Compaction
import FabricReconciliation.Coverage
import FabricReconciliation.Cycle
import FabricReconciliation.Damage
import FabricReconciliation.Document
import FabricReconciliation.DocumentJson
import FabricReconciliation.Drift
import FabricReconciliation.Durability
import FabricReconciliation.Engine
import FabricReconciliation.Epochs
import FabricReconciliation.Evidence
import FabricReconciliation.Failure
import FabricReconciliation.Fencing
import FabricReconciliation.Freshness
import FabricReconciliation.Guard
import FabricReconciliation.Handling
import FabricReconciliation.Hash
import FabricReconciliation.Histories
import FabricReconciliation.Identity
import FabricReconciliation.InFlight
import FabricReconciliation.Journal
import FabricReconciliation.Json
import FabricReconciliation.Kept
import FabricReconciliation.Keys
import FabricReconciliation.Language
import FabricReconciliation.Layout
import FabricReconciliation.Lib.Blocks
import FabricReconciliation.Lib.Ceiling
import FabricReconciliation.Lib.Checked
import FabricReconciliation.Lib.Codec
import FabricReconciliation.Lib.Collections
import FabricReconciliation.Lib.Framing
import FabricReconciliation.Lib.Json
import FabricReconciliation.Lib.Merge
import FabricReconciliation.Lib.OrdMap
import FabricReconciliation.Lib.Rendered
import FabricReconciliation.Lib.Separated
import FabricReconciliation.Lifecycle
import FabricReconciliation.Lineage
import FabricReconciliation.Literals
import FabricReconciliation.Live
import FabricReconciliation.Outcomes
import FabricReconciliation.Persistence
import FabricReconciliation.Plan
import FabricReconciliation.PlanIdentity
import FabricReconciliation.Planner
import FabricReconciliation.Policy
import FabricReconciliation.Publishing
import FabricReconciliation.Purity
import FabricReconciliation.Queries
import FabricReconciliation.Recorded
import FabricReconciliation.Records
import FabricReconciliation.Recovery
import FabricReconciliation.Redispatch
import FabricReconciliation.Refusals
import FabricReconciliation.Rendering
import FabricReconciliation.Restart
import FabricReconciliation.Retries
import FabricReconciliation.Selection
import FabricReconciliation.Server
import FabricReconciliation.Serving
import FabricReconciliation.Session
import FabricReconciliation.Snapshot
import FabricReconciliation.Staleness
import FabricReconciliation.Store
import FabricReconciliation.Streaming
import FabricReconciliation.Streams
import FabricReconciliation.Strictness
import FabricReconciliation.Success
import FabricReconciliation.Tables
import FabricReconciliation.Value
import FabricReconciliation.Verdicts
import FabricReconciliation.Verification
import FabricReconciliation.Verified
import FabricReconciliation.View
import FabricReconciliation.Vocabulary
import FabricReconciliation.Wire
import FabricReconciliation.Writer
import FabricReconciliation.Writes
