import Backit.CallRegistry.VoidRefunds
import Backit.CallRegistry.Conditions
import Backit.CallRegistry.ShareBacking
import Backit.CallRegistry.AdminSet
import Backit.CallRegistry.StakeVotes
import Backit.CallRegistry.ReputationLimits
import Backit.OutcomeManager.OracleSet
import Backit.OutcomeManager.Confirmations
import Backit.OutcomeManager.LostVotes
import Backit.OutcomeManager.Twap
import Backit.PredictionMarket.FairFills
import Backit.Platform.RolloverSolvency
import Backit.Platform.SubmissionWindow
import Backit.Platform.BatchClaims
import Backit.BackitToken.Supply
import Backit.PredictionMarketFutures.Exits
import Backit.SchellingOracle.Copies
import Backit.LendingPool.Limits
import Backit.LendingPool.Recovery
import Backit.IndexFund.Deposits
import Backit.Governance.Authority
import Backit.Governance.Buckets
import Backit.Orderbook.Priority
import Backit.GasStation.Claims
import Backit.ParlayBetting.Legs
import Backit.Idempotency.Requests
import Backit.Idempotency.Replays
import Backit.Oracle.Lifecycle
import Backit.EventStore.Replay
import Backit.Indexer.Once
import Backit.Relay.Sponsorship
import Backit.Frontend.Balances
import Backit.Frontend.Amounts
import Backit.DeadLetter.Lifecycle
import Backit.Leaderboard.Upkeep
import Backit.Tournaments.ScoreBounds
import Backit.Tournaments.Contests
import Backit.YieldAggregator.Shares
import Backit.ReputationNft.Records
import Backit.Governance.ActiveProposals
import Backit.OracleMarketplace.Deregistration
import Backit.DutchAuction.Prices
import Backit.CallRegistry.CallListing
import Backit.Platform.SignedMessages
import Backit.Platform.RolloverLineage
import Backit.Platform.RecordedClaims
import Backit.CrossChainOracleRelay.Relays
import Backit.Payouts.Writers
import Backit.Treasury.Fees
import Backit.DeadLetter.Cleanup
import Backit.DeadLetter.Redaction
import Backit.Reconciliation.Reports
import Backit.Auth.Sessions
import Backit.Config.Settings
import Backit.Webhooks.RateLimiter
import Backit.Webhooks.Dispatch
import Backit.Leaderboard.ContextualRank
import Backit.Analytics.TimeSeries
import Backit.EventLogs.Partitions
