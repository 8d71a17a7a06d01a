import Espx.Settlement.DirtySet
import Espx.Settlement.Overspend
import Espx.ControlPlane.Worth
import Espx.ControlPlane.LedgerDrift
import Espx.Ingestion.ControlLimits
import Espx.Ingestion.FullSkip
import Espx.Ingestion.StreamLane
import Espx.Settlement.QuotaBacking
import Espx.Payment.CryptoHolds
import Espx.Payment.StripeCredit
import Espx.Payment.Chargebacks
import Espx.ControlPlane.Reconciliation
import Espx.ControlPlane.OutboxOnce
import Espx.ControlPlane.CommandKeys
import Espx.Edge.ClientIP
import Espx.Edge.SlotMap
import Espx.Ingestion.ChunkedExact
import Espx.SlotMigration.CatchUp
import Espx.SlotMigration.DualWriteInvariant
import Espx.SlotMigration.SharedInvariant
import Espx.ControlPlane.DeliveryProgress
import Espx.SlotMigration.Fence
import Espx.Edge.CampaignAgreement
import Espx.Edge.Blocklist
import Espx.Ingestion.HpackAgreement
import Espx.Ingestion.Http2Buffering
import Espx.Ingestion.Acknowledgements
import Espx.Ingestion.BatchTokens
import Espx.Ingestion.ClickLocation
import Espx.Ingestion.SettlementLanes
import Espx.Broker.MessageIterator
import Espx.Broker.Fencing
import Espx.Broker.LeaderReadiness
import Espx.Failover.Epochs
import Espx.Region.Wal
import Espx.LogPipeline.HotSegments
import Espx.Rtb.AuctionRanking
import Espx.Rtb.BudgetStore
import Espx.ControlPlane.DedupScopes
import Espx.ControlPlane.QuotaRepair
import Espx.ControlPlane.BlacklistBatch
