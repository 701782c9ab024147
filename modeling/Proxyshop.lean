import Proxyshop.Python.Text
import Proxyshop.Python.DateTime
import Proxyshop.Python.Dict
import Proxyshop.Python.Value
import Proxyshop.Hashing.Sha256
import Proxyshop.Ledger.Canonical
import Proxyshop.Ledger.Commitment
import Proxyshop.Events.Store
import Proxyshop.Events.StoreInvariant
import Proxyshop.Scoring.Engine
import Proxyshop.Scoring.Exact
import Proxyshop.Feedback.Weighting
import Proxyshop.Ledger.Projection
import Proxyshop.Feedback.Deltas
import Proxyshop.Blacklist.Fold
import Proxyshop.Blacklist.Registry
import Proxyshop.Blacklist.Release
import Proxyshop.Events.Observations
import Proxyshop.Python.Escape
import Proxyshop.Structures.UnionFind
import Proxyshop.Structures.Bridging
import Proxyshop.Reconcile.Keys
import Proxyshop.Structures.Filing
import Proxyshop.Reconcile.Verdict
import Proxyshop.Reconcile.Engine
import Proxyshop.Reconcile.Partition
import Proxyshop.Reconcile.Emission
import Proxyshop.Reconcile.Stream
import Proxyshop.Reconcile.CodeLinks
import Proxyshop.Reconcile.Isolation
import Proxyshop.Events.Admission
import Proxyshop.Events.Pages
import Proxyshop.Reconcile.PageOrder
import Proxyshop.Reconcile.Beacon
import Proxyshop.Reconcile.EventIds
import Proxyshop.Reconcile.Poison
import Proxyshop.Reconcile.Evidence
import Proxyshop.Contracts.PriceDoors
import Proxyshop.Contracts.PriceWall
import Proxyshop.Contracts.Provenance
import Proxyshop.Contracts.SignatureBinding
import Proxyshop.Auction.Serial
import Proxyshop.Auction.Hosted
import Proxyshop.Auction.Rivals
import Proxyshop.Auction.PriceSound
import Proxyshop.Auction.Solicitation
import Proxyshop.Ranking.Appended
import Proxyshop.Ranking.TrustRow
import Proxyshop.Merchant.OneTerms
import Proxyshop.Merchant.Handoff
import Proxyshop.Merchant.SingleUse
import Proxyshop.External.Admission
import Proxyshop.Learning.OwnRows
import Proxyshop.Learning.Blindness
import Proxyshop.Auction.TrustBacked
import Proxyshop.Policy.OneAnswer
import Proxyshop.Structures.FirstFit
import Proxyshop.Ranking.Shortlist
import Proxyshop.Policy.Exploration
import Proxyshop.Structures.WaterFilling
import Proxyshop.Policy.Overrides
import Proxyshop.Ranking.Explored
import Proxyshop.Policy.Durable
import Proxyshop.Policy.Durability
import Proxyshop.Agent.Runner
import Proxyshop.Agent.OneTrial
import Proxyshop.Agent.Loop
import Proxyshop.Agent.Logged
import Proxyshop.Agent.Credited
import Proxyshop.Structures.Interleaving
import Proxyshop.External.Caller
import Proxyshop.External.AllOrNothing
import Proxyshop.Structures.Custody
import Proxyshop.External.Backlog
import Proxyshop.External.Drained
import Proxyshop.Structures.GuardedWalk
import Proxyshop.Hooks.Material
import Proxyshop.Hooks.FieldOfView
import Proxyshop.Hooks.Overlooked
import Proxyshop.Hooks.Tools
import Proxyshop.Hooks.Walls
import Proxyshop.Hooks.Spending
import Proxyshop.Er.Identity
import Proxyshop.Er.Matching
import Proxyshop.Structures.Labelled
import Proxyshop.Er.Linking
import Proxyshop.Er.Candidates
import Proxyshop.Er.Consistency
import Proxyshop.Er.Order
import Proxyshop.Graph.Payloads
import Proxyshop.Graph.Actions
import Proxyshop.Structures.Shadow
import Proxyshop.Graph.Memo
import Proxyshop.Graph.Sourced
import Proxyshop.Graph.Rerun
import Proxyshop.Structures.Kleene
import Proxyshop.Graph.Filters
import Proxyshop.Graph.Readings
import Proxyshop.Retrieval.Pushdown
import Proxyshop.Structures.Latch
import Proxyshop.Blacklist.Recommend
import Proxyshop.Blacklist.Converge
import Proxyshop.Python.Calendar
import Proxyshop.Ledger.Timestamps
import Proxyshop.Ledger.CanonicalLaws
import Proxyshop.Events.Integrity
import Proxyshop.Ledger.Faithful
import Proxyshop.Ledger.Moments
import Proxyshop.Events.PostEvent
import Proxyshop.Checkout.Provider
import Proxyshop.Feedback.Scrub
import Proxyshop.Feedback.Push
import Proxyshop.Ranking.Scoring
import Proxyshop.Ranking.Features
import Proxyshop.Ranking.Evidence
import Proxyshop.Auction.Memory
import Proxyshop.Verification.Reuse
import Proxyshop.Ranking.Narrowing
import Proxyshop.Verification.Confirmation
import Proxyshop.Verification.Units
import Proxyshop.Structures.Worklist
import Proxyshop.Checkout.Redaction
import Proxyshop.Structures.Regex
import Proxyshop.Python.Pattern
import Proxyshop.Verification.Grading
import Proxyshop.Verification.Terms
import Proxyshop.Ranking.Slots
import Proxyshop.Merchant.Wording
import Proxyshop.Merchant.NamedTerms
import Proxyshop.Merchant.Offers
import Proxyshop.Merchant.Combining
import Proxyshop.Merchant.Creation
import Proxyshop.Merchant.Callback
import Proxyshop.Merchant.Collector
