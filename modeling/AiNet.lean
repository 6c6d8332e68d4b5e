import AiNet.AgentGovernance.Snapshot
import AiNet.AgentRegistry.AuditTrail
import AiNet.AgentRegistry.Books
import AiNet.AgentRegistry.Decay
import AiNet.AgentRegistry.Listing
import AiNet.AgentRegistry.Quorum
import AiNet.AgentRegistry.Scoring
import AiNet.AgentRegistry.Version
import AiNet.AgentRegistry.Versions
import AiNet.Agents.Evictions
import AiNet.Agents.Owned
import AiNet.Agents.Withheld
import AiNet.Agents.Walk
import AiNet.Audit.Tampering
import AiNet.Auth.Revocation
import AiNet.Bidding.BondedWinner
import AiNet.Bidding.Messages
import AiNet.Bidding.NoStuck
import AiNet.Bidding.RevealRight
import AiNet.Breaker.Venice
import AiNet.Breaker.Streamed
import AiNet.Budget.Costs
import AiNet.Budget.Usage
import AiNet.Coordinator.Allowance
import AiNet.RateLimit.SlidingWindow
import AiNet.DisputeResolution.Settlement
import AiNet.DisputedBonds.Agreement
import AiNet.EligibilityGate.Actor
import AiNet.ErrorRegistry.Cleanup
import AiNet.ErrorResolver.Multisig
import AiNet.Events.Continuity
import AiNet.Events.CrashSafety
import AiNet.Events.Retention
import AiNet.Events.Summaries
import AiNet.Frontend.TaskWebSocket
import AiNet.Idempotency.SingleRun
import AiNet.Llm.Billing
import AiNet.Llm.ScoreCache
import AiNet.Marketplace.Custody
import AiNet.Payment.Agreement
import AiNet.Queue.RetryBudget
import AiNet.Quotes.Freshness
import AiNet.Reconciliation.Intent
import AiNet.Reconciliation.PendingStores
import AiNet.Migrator.Ledger
import AiNet.Streaming.Resume
import AiNet.Streaming.Sockets
import AiNet.Sync.Mirror
import AiNet.TaskRoutes.Cancelled
import AiNet.TaskRoutes.Promise
import AiNet.TaskStore.CreatorIndex
import AiNet.TaskStore.History
import AiNet.UpgradeManager.Precedence
import AiNet.UpgradeManager.Rollback
import AiNet.EscrowSdk.Milestones
import AiNet.EscrowSdk.Amounts
