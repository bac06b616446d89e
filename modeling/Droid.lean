import Droid.Lib.Dict
import Droid.Lib.Run
import Droid.Lib.Shares
import Droid.Lib.Rounding
import Droid.Lib.Window
import Droid.Lib.Decimal
import Droid.Algo.Execution
import Droid.Algo.Lifecycle
import Droid.Algo.OrderManager
import Droid.Algo.Submission
import Droid.Algo.Isolation
import Droid.Algo.Positions
import Droid.Algo.Capital
import Droid.Signals.Fsm
import Droid.Signals.TransactionCosts
import Droid.Signals.FsmManager
import Droid.Signals.OutcomeMetrics
import Droid.Signals.Atomicity
import Droid.Signals.ExpiryEconomics
import Droid.Signals.Replay
import Droid.Signals.OutcomeLabels
import Droid.Paper.Model
import Droid.Paper.Service
import Droid.Paper.Conservation
import Droid.Paper.Exits
import Droid.Paper.Sweep
import Droid.Paper.Fills
import Droid.Paper.Gates
import Droid.Paper.Kept
import Droid.Paper.Tasks
import Droid.Paper.Pnl
import Droid.Paper.Restarts
import Droid.Paper.SquareOff
import Droid.Signals.FillReconciler
import Droid.Signals.AuditLedger
import Droid.Signals.PaperEngine
import Droid.Signals.DeskFrames
import Droid.Signals.SharedContract
import Droid.Signals.OutcomeTracker
import Droid.Signals.Agreement
import Droid.Signals.EntryTurn
import Droid.Signals.ExitTurns
import Droid.Signals.StagedExit
import Droid.Signals.Stops
import Droid.Signals.StopOuts
import Droid.Signals.Sweeps
import Droid.Signals.Settlement
import Droid.Signals.Reconciliation
import Droid.Signals.ReconcilerReplay
import Droid.Signals.Quarantine
import Droid.Signals.TriggerGate
import Droid.Safety.SequenceValidator
import Droid.Safety.FeedCircuit
import Droid.Safety.DecimalTypes
import Droid.Safety.ExecutionIntent
import Droid.Safety.ExecutionGuard
import Droid.Safety.GuardSoundness
import Droid.Safety.FeedHealthMonitor
import Droid.Positions.Position
import Droid.Positions.Registry
import Droid.Positions.Economics
import Droid.Positions.PortfolioGreeks
import Droid.Algo.Cancel
import Droid.Algo.Exits
import Droid.Audit.Record
import Droid.Audit.Settlement
import Droid.Audit.Ledger
import Droid.Audit.Finality
import Droid.Signals.Legs
import Droid.Audit.NetPnl
import Droid.Audit.DeskRows
import Droid.Audit.Restart
import Droid.Audit.Summary
import Droid.Algo.Reconcile
import Droid.Algo.PortfolioRisk
import Droid.Algo.FillQuantity
import Droid.Algo.PositionManager
import Droid.Algo.BrokerSync
import Droid.Algo.TrailingStop
import Droid.Algo.SignalFusion
import Droid.Algo.FusionSymmetry
import Droid.Algo.ConflictResolver
import Droid.Algo.CandidateConflicts
import Droid.Lib.Lots
import Droid.Algo.PositionSizing
import Droid.Signals.RiskEngine
import Droid.Signals.RiskCoherence
import Droid.Research.Rules
import Droid.Research.Normaliser
import Droid.Research.Causality
import Droid.Research.NormalForm
import Droid.Research.HalfBuilt
import Droid.Research.Backtest
import Droid.Research.GridSearch
import Droid.Research.Selection
import Droid.Research.Loop
import Droid.Research.Noninterference
import Droid.Research.Drawdown
import Droid.Research.Accounting
import Droid.Research.DrawdownRecord
import Droid.Research.Exits
import Droid.History.Manifest
import Droid.History.ManifestKept
import Droid.Lib.Text
import Droid.Lib.Least
import Droid.Lib.RunningPeak
import Droid.Lib.Extension
import Droid.Lib.Frames
import Droid.Lib.Buckets
import Droid.History.Candles
import Droid.History.Calendar
import Droid.History.Store
import Droid.History.Shelf
import Droid.History.Saves
import Droid.History.Services
import Droid.History.Immutable
import Droid.History.Growth
import Droid.History.Gaps
import Droid.History.Resampling
import Droid.Lib.Gather
import Droid.History.DiskScan
import Droid.History.DiskInverse
import Droid.History.Download
import Droid.History.Lifecycle
import Droid.Events.RiskOverlay
import Droid.Events.Ingestion
import Droid.Events.SourceRecords
import Droid.Stream.Sections
import Droid.Stream.AppStreamHub
import Droid.Stream.Queues
import Droid.Stream.Delivery
import Droid.Market.Coordinator
import Droid.Market.SingleFlight
import Droid.Market.DataFirewall
import Droid.Lib.Backlog
import Droid.Outcomes.Sessions
import Droid.Outcomes.Settlement
import Droid.Outcomes.DueRuns
import Droid.Outcomes.Measured
import Droid.Lib.Newest
import Droid.Restore.Rows
import Droid.Restore.Managers
import Droid.Restore.Holdings
import Droid.Restore.Resume
import Droid.Restore.Merge
import Droid.Restore.Sanitize
import Droid.Lib.Transducer
import Droid.Lib.Adjacent
import Droid.Feed.DataQuality
import Droid.Feed.LiveCandles
import Droid.Feed.WritePipeline
import Droid.Lib.StableSort
import Droid.Lib.Tally
import Droid.Divergence.Detect
import Droid.Divergence.Repaint
import Droid.Validation.WalkForward
import Droid.Validation.Leakage
import Droid.Vortex.CostModel
import Droid.Vortex.Engine
import Droid.Vortex.Pessimism
import Droid.Signals.CrossDeskArbiter
import Droid.Signals.WorstConflict
import Droid.Signals.UnseenTrades
import Droid.Outcomes.OutcomeMeasurer
import Droid.Outcomes.TwoEvaluators
import Droid.Signals.LiveContractCache
import Droid.Signals.CacheReads
import Droid.Lib.Upgrade
import Droid.Signals.OptionMarks
import Droid.Signals.MarkGates
import Droid.Signals.MarkLaw
import Droid.Lib.Patch
import Droid.Research.Shadow
import Droid.Signals.OptionSizing
import Droid.Signals.PremiumDomain
import Droid.Ml.PitStore
import Droid.Lib.Classes
import Droid.Feed.EventBuffer
import Droid.Feed.EventLedger
import Droid.Lib.Replace
import Droid.Signals.EventBus
import Droid.Signals.EventBusLaw
import Droid.Lib.Gapped
import Droid.Lib.LeastSquares
import Droid.Research.IndicatorHelpers
import Droid.Research.RollingStatistics
import Droid.Safety.TickProjection
import Droid.Lib.Clamp
import Droid.Vortex.ExitEngine
import Droid.Vortex.StateMachine
import Droid.Vortex.TradeCycle
import Droid.Lib.Isotonic
import Droid.Lib.Pools
import Droid.Ml.Calibrators
import Droid.Ml.TiedScores
import Droid.Ml.IsotonicMap
import Droid.Stream.Tickets
import Droid.Algo.TriggerEngine
import Droid.Signals.FrictionGate
