import Soter.AiCache.Flights
import Soter.AiProviders.OpenCircuit
import Soter.AiTasks.Finality
import Soter.AiUploads.Exact
import Soter.AidEscrow.AllowedTokens
import Soter.AidEscrow.BatchAdmin
import Soter.AidEscrow.ClaimedTotals
import Soter.AidEscrow.Cooldown
import Soter.AidEscrow.DelegateAudit
import Soter.AidEscrow.DelegatePeriods
import Soter.AidEscrow.DelegateSweep
import Soter.AidEscrow.EventLog
import Soter.AidEscrow.MerkleGate
import Soter.AidEscrow.Reassignment
import Soter.AidEscrow.RecipientPages
import Soter.AidEscrow.Timelock
import Soter.AidEscrow.TtlPolicy
import Soter.ApiKeys.RotationStatus
import Soter.Audit.TamperEvidence
import Soter.Backfill.Complete
import Soter.Cache.Invalidation
import Soter.Claims.Disbursement
import Soter.Claims.ReissueHistory
import Soter.DecisionAudit.Durability
import Soter.EntityLinking.Review
import Soter.Events.ClaimLookup
import Soter.Evidence.Retrieval
import Soter.Evidence.Revocation
import Soter.Idempotency.AtMostOnce
import Soter.Notifications.Bookkeeping
import Soter.Notifications.Cutoff
import Soter.Onchain.Discrepancies
import Soter.Onchain.FundingCap
import Soter.Privacy.StructuredFields
import Soter.RateLimiting.LoadShedding
import Soter.RateLimiting.Redis
import Soter.RecipientImport.Amounts
import Soter.RecipientImport.CsvRoundTrip
import Soter.Retention.BatchFree
import Soter.Review.Exclusion
import Soter.Search.Progress
import Soter.Soroban.Outcomes
import Soter.Soroban.StuckRecords
import Soter.SyncQueue.RequestLayer
import Soter.SyncQueue.Terminal
import Soter.SyncQueue.UploadOnce
import Soter.Verification.AnchorMetadata
import Soter.Verification.AttemptLimit
import Soter.Verification.CircuitBreaker
import Soter.Verification.ReviewQueue
import Soter.SyncQueue.LocalCache
import Soter.AiCache.ContentHash
import Soter.Onchain.DryRun
import Soter.Audit.JsonEquality
import Soter.AidEscrow.DecimalIds
import Soter.Claims.ExportStream
import Soter.SyncQueue.Base64
import Soter.Evidence.Levenshtein
