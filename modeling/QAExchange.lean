import QAExchange.Exchange.RestoredOrders
import QAExchange.Exchange.MatchCounting
import QAExchange.Exchange.TradeRecording
import QAExchange.Exchange.ImmediateOrCancel
import QAExchange.Exchange.FillOrKill
import QAExchange.Storage.WalCrash
import QAExchange.Exchange.GatewayWal
import QAExchange.Storage.OltpRecovery
import QAExchange.Storage.CheckpointRecency
import QAExchange.Storage.CompactedReads
import QAExchange.Exchange.FundTransfers
import QAExchange.Account.ReportDelivery
import QAExchange.Matching.AuctionRules
import QAExchange.Matching.MatchingEngineCore
import QAExchange.Protocol.CreatePatch
import QAExchange.Protocol.PeekWakeups
import QAExchange.Protocol.ReplicaAgreement
import QAExchange.Storage.OrderRecovery
import QAExchange.Storage.ConvertedRecords
import QAExchange.Replication.LeaderCompleteness
import QAExchange.Replication.VoteTasks
import QAExchange.Factor.ParallelLevels
import QAExchange.Factor.SharedDag
import QAExchange.Replication.StaleLeaders
import QAExchange.Market.KLineBars
import QAExchange.Market.BroadcastBatch
import QAExchange.Market.SnapshotFanOut
import QAExchange.Market.DailyStatistics
import QAExchange.Market.MarketDataRecovery
import QAExchange.Cluster.RingHistory
import QAExchange.Cluster.ReplicaSelection
import QAExchange.Cluster.ShardRouter
import QAExchange.Perf.SpscQueue
import QAExchange.Perf.GenericPool
import QAExchange.Service.DiffHandler
import QAExchange.Service.WholeSessions
import QAExchange.Service.QuoteDelivery
import QAExchange.Query.MergeStrategies
import QAExchange.Query.UnifiedQuery
import QAExchange.Notification.NotificationDelivery
import QAExchange.Notification.Deduplication
import QAExchange.Notification.NotificationJson
import QAExchange.Users.UserRestart
import QAExchange.Users.UniqueRegistration
import QAExchange.Factor.IncrementalOperators
import QAExchange.Factor.Correlations
import QAExchange.Exchange.StateNotifications
import QAExchange.Exchange.PriorityQueue
import QAExchange.Exchange.ConditionalOrders
import QAExchange.Settlement.DailyProfits
import QAExchange.Settlement.LiquidationRecords
import QAExchange.Storage.ConversionCleanup
import QAExchange.Storage.CompositeIndex
import QAExchange.Storage.SSTableAgreement
import QAExchange.Storage.CompactionOrder
import QAExchange.Storage.BlockSearch
import QAExchange.Storage.OlapRoundTrip
import QAExchange.Factor.StateStoreCrash
import QAExchange.Factor.FactorActor
import QAExchange.Factor.IncrementalExecutor
import QAExchange.Dsl.Precedence
