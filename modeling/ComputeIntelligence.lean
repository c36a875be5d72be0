import ComputeIntelligence.ActiveGates
import ComputeIntelligence.Answers
import ComputeIntelligence.ApiAuth
import ComputeIntelligence.AttributionIndex
import ComputeIntelligence.AuditCompleteness
import ComputeIntelligence.AuditEvents
import ComputeIntelligence.AuditTrail
import ComputeIntelligence.Backfill
import ComputeIntelligence.BatchIngestion
import ComputeIntelligence.BillingData
import ComputeIntelligence.BodyLimit
import ComputeIntelligence.BoundedWalks
import ComputeIntelligence.BoundedWindow
import ComputeIntelligence.BreakerInvariant
import ComputeIntelligence.BusInvariant
import ComputeIntelligence.Calibration
import ComputeIntelligence.CalibrationMonotone
import ComputeIntelligence.CalibrationRange
import ComputeIntelligence.CappedHistory
import ComputeIntelligence.Carbon
import ComputeIntelligence.CircuitBreaker
import ComputeIntelligence.CircuitLinearizable
import ComputeIntelligence.CircuitRecords
import ComputeIntelligence.CircuitReplicas
import ComputeIntelligence.CircuitStore
import ComputeIntelligence.CohortSize
import ComputeIntelligence.Combination
import ComputeIntelligence.CombinationBounds
import ComputeIntelligence.ConnectorKeys
import ComputeIntelligence.ConnectorRedelivery
import ComputeIntelligence.ConnectorSchemas
import ComputeIntelligence.Connectors
import ComputeIntelligence.ConsumeLoop
import ComputeIntelligence.CorrectionKeys
import ComputeIntelligence.CostLedger
import ComputeIntelligence.CostSimulation
import ComputeIntelligence.Deduplication
import ComputeIntelligence.DeliveryIds
import ComputeIntelligence.DeploymentNodes
import ComputeIntelligence.Dialogues
import ComputeIntelligence.DurableIndex
import ComputeIntelligence.EdgeVersions
import ComputeIntelligence.Effects
import ComputeIntelligence.EngineCache
import ComputeIntelligence.EqualSignals
import ComputeIntelligence.EquivalenceCache
import ComputeIntelligence.EquivalenceVerifier
import ComputeIntelligence.EventBus
import ComputeIntelligence.EventIngestion
import ComputeIntelligence.EventSchema
import ComputeIntelligence.Events
import ComputeIntelligence.ExceptRules
import ComputeIntelligence.Explanations
import ComputeIntelligence.FailOpenMarks
import ComputeIntelligence.FallbackWalk
import ComputeIntelligence.FederatedBenchmark
import ComputeIntelligence.FirstByKey
import ComputeIntelligence.FirstMax
import ComputeIntelligence.FixedDigits
import ComputeIntelligence.Gateway
import ComputeIntelligence.GracefulStop
import ComputeIntelligence.GraphBackends
import ComputeIntelligence.GraphStore
import ComputeIntelligence.Grouping
import ComputeIntelligence.GuardedRuns
import ComputeIntelligence.HalfOpen
import ComputeIntelligence.HashOrder
import ComputeIntelligence.HeaderBudget
import ComputeIntelligence.HreEngine
import ComputeIntelligence.HreMethods
import ComputeIntelligence.HttpSurface
import ComputeIntelligence.IndexInterleavings
import ComputeIntelligence.IndexRecency
import ComputeIntelligence.IngestCallers
import ComputeIntelligence.IngestLimiter
import ComputeIntelligence.Interception
import ComputeIntelligence.Interventions
import ComputeIntelligence.IsoTime
import ComputeIntelligence.JsonForm
import ComputeIntelligence.KafkaCodec
import ComputeIntelligence.KafkaConsumer
import ComputeIntelligence.KafkaPublish
import ComputeIntelligence.KafkaStart
import ComputeIntelligence.KeptEvidence
import ComputeIntelligence.KeyedLock
import ComputeIntelligence.LateFacts
import ComputeIntelligence.LearnedCorrelations
import ComputeIntelligence.LeastSquares
import ComputeIntelligence.LivePlatform
import ComputeIntelligence.LogReplay
import ComputeIntelligence.LookupKeys
import ComputeIntelligence.LookupReport
import ComputeIntelligence.LruList
import ComputeIntelligence.Materializer
import ComputeIntelligence.Memberships
import ComputeIntelligence.MoreEvidence
import ComputeIntelligence.NamingMatches
import ComputeIntelligence.Neo4jStore
import ComputeIntelligence.NeverBlocks
import ComputeIntelligence.NoisyOr
import ComputeIntelligence.Notifications
import ComputeIntelligence.OffsetLog
import ComputeIntelligence.OnceCell
import ComputeIntelligence.Optimistic
import ComputeIntelligence.OrderStatistics
import ComputeIntelligence.OutcomeCounters
import ComputeIntelligence.Pipeline
import ComputeIntelligence.PlatformConfig
import ComputeIntelligence.PolicyChecks
import ComputeIntelligence.PolicyEngine
import ComputeIntelligence.PolicyEvaluation
import ComputeIntelligence.PolicyIsolation
import ComputeIntelligence.PricingCatalog
import ComputeIntelligence.PrivacyBudget
import ComputeIntelligence.Processor
import ComputeIntelligence.ProportionalShares
import ComputeIntelligence.PyDict
import ComputeIntelligence.PyValue
import ComputeIntelligence.RateLimiter
import ComputeIntelligence.Rebuild
import ComputeIntelligence.RecordKeys
import ComputeIntelligence.Redelivery
import ComputeIntelligence.RedirectTargets
import ComputeIntelligence.RefreshExclusion
import ComputeIntelligence.RefreshInterval
import ComputeIntelligence.RiskAdjustedCost
import ComputeIntelligence.RoundedArith
import ComputeIntelligence.RoundedOrder
import ComputeIntelligence.Rounding
import ComputeIntelligence.Runtime
import ComputeIntelligence.ScoreBounds
import ComputeIntelligence.ScoreRange
import ComputeIntelligence.ScoredEvents
import ComputeIntelligence.SecureNoise
import ComputeIntelligence.SequenceMatcher
import ComputeIntelligence.ShadowWarming
import ComputeIntelligence.SlidingWindow
import ComputeIntelligence.SpendForecast
import ComputeIntelligence.StableSort
import ComputeIntelligence.StoreInvariant
import ComputeIntelligence.StoredTimes
import ComputeIntelligence.StrictSchema
import ComputeIntelligence.TaskSet
import ComputeIntelligence.Tightening
import ComputeIntelligence.TimeBox
import ComputeIntelligence.TimeSpan
import ComputeIntelligence.TokenBucket
import ComputeIntelligence.TornCounts
import ComputeIntelligence.Traversal
import ComputeIntelligence.TtlCache
import ComputeIntelligence.UnitRoundoff
