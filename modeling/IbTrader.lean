import IbTrader.Lib.EventLog
import IbTrader.Engine.OrderStream
import IbTrader.Engine.OrderLedgerReroute
import IbTrader.Engine.LifoIdentity
import IbTrader.Engine.Commission
import IbTrader.Engine.SmartMarketExposure
import IbTrader.Engine.CloseQuantity
import IbTrader.Engine.SplitFills
import IbTrader.Engine.Accounting
import IbTrader.Bots.RoundTrip
import IbTrader.Bots.StateWriters
import IbTrader.Bots.Attribution
import IbTrader.Bots.BarAggregatorRestart
import IbTrader.Ib.CancelGate
import IbTrader.Bots.InFlight
import IbTrader.Bots.PipelineAtomicity
import IbTrader.Engine.ExitProtection
import IbTrader.Engine.TerminalRecords
import IbTrader.Engine.FillBooks
import IbTrader.Bots.FlatState
import IbTrader.Bots.RunnerStartup
import IbTrader.Bots.Instances
import IbTrader.Engine.DriftReconciler
import IbTrader.Bots.BarFeed
import IbTrader.Bots.RiskGate
import IbTrader.Engine.ClosePnl
import IbTrader.Engine.TwoLegs
import IbTrader.Daemon.Linkage
import IbTrader.Bots.TradeCommission
import IbTrader.Engine.PositionDiff
import IbTrader.Engine.SeedCost
import IbTrader.Engine.Recovery
import IbTrader.Engine.ExecAccumulator
import IbTrader.Engine.ExecSweeps
import IbTrader.Data.Symbols
import IbTrader.Engine.OpenOrders
import IbTrader.Engine.OpenOrdersMirror
import IbTrader.Lib.Comparator
import IbTrader.Signals.SrFan
import IbTrader.Frontend.SupportResistance
import IbTrader.Signals.SrParity
import IbTrader.Api.Channels
import IbTrader.Frontend.Store
import IbTrader.Api.Replica
import IbTrader.Lib.ShellWords
import IbTrader.Data.Python
import IbTrader.Repl.Commands
import IbTrader.Engine.OrderRequests
import IbTrader.Engine.CommandRoundTrip
import IbTrader.Lib.Coroutines
import IbTrader.Ib.Subscriptions
import IbTrader.Ib.RefCounts
import IbTrader.Ib.Reconnects
import IbTrader.Engine.LedgerProgress
import IbTrader.Bots.ExitCycle
import IbTrader.Bots.PositionPull
import IbTrader.Lib.SlidingWindow
import IbTrader.Bots.OrderRateLimit
import IbTrader.Bots.DailyStats
import IbTrader.Bots.StateRollback
import IbTrader.Engine.WalkPrices
import IbTrader.Engine.RepriceLoop
import IbTrader.Lib.Calls
import IbTrader.Ib.AmendOrder
import IbTrader.Engine.AmendTruth
import IbTrader.Engine.PartialRecords
import IbTrader.Lib.Errors
import IbTrader.Engine.OrderRef
import IbTrader.Bots.BarSlots
import IbTrader.Lib.Causal
import IbTrader.Signals.SwingFeatures
import IbTrader.Lib.Least
import IbTrader.Lib.Growing
import IbTrader.Signals.SrLines
import IbTrader.Lib.Linger
import IbTrader.Bots.ChartStop
import IbTrader.Bots.ChartRatchet
import IbTrader.Bots.ChartFiring
import IbTrader.Lib.HighWater
import IbTrader.Bots.TrailingExit
import IbTrader.Bots.TrailingReference
import IbTrader.Repl.CloseCommand
import IbTrader.Repl.CommandTokens
import IbTrader.Repl.CommandUse
import IbTrader.Repl.LineUse
import IbTrader.Lib.KeepOne
import IbTrader.Ib.OpenOrders
import IbTrader.Data.ContractMonths
import IbTrader.Daemon.CommissionSweep
import IbTrader.Engine.SingleCommand
import IbTrader.Engine.CommandOutcome
import IbTrader.Lib.IsoTime
import IbTrader.Lib.Grouping
import IbTrader.Engine.ExecMarkers
import IbTrader.Engine.OrderMarkers
import IbTrader.Lib.FifoLock
import IbTrader.Ib.OrderedDispatch
import IbTrader.Bots.EventLoop
import IbTrader.Data.Streams
import IbTrader.Ib.Connection
import IbTrader.Ib.Throttle
import IbTrader.Engine.HistoryCache
import IbTrader.Lib.Streak
import IbTrader.Engine.TickWatchdog
import IbTrader.Daemon.Monitor
import IbTrader.Bots.StaleQuotes
import IbTrader.Signals.Rsi
import IbTrader.Engine.StartupReconcile
import IbTrader.Engine.PositionsCache
import IbTrader.Bots.Bootstrap
import IbTrader.Signals.Divergence
import IbTrader.Bots.CounterLine
import IbTrader.Engine.PnlSweep
import IbTrader.Engine.MarketHours
