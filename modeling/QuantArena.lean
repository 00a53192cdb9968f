import QuantArena.Foundations.Dict
import QuantArena.Foundations.OrderedMap
import QuantArena.Foundations.Fault
import QuantArena.Foundations.Bytes
import QuantArena.Foundations.PriceTime
import QuantArena.Foundations.Stream
import QuantArena.Contracts.Records
import QuantArena.Engine.NaiveModel
import QuantArena.Engine.NaiveModelProperties
import QuantArena.Engine.NaiveModelMatching
import QuantArena.Engine.Cpp.OrderBook
import QuantArena.Engine.Cpp.OrderBookProperties
import QuantArena.Engine.Cpp.OrderBookQueues
import QuantArena.Engine.Cpp.StreamEngine
import QuantArena.Exchange.Tape
import QuantArena.Exchange.Market
import QuantArena.Exchange.MarketProperties
import QuantArena.Exchange.MarketWire
import QuantArena.Matcher.Snapshot
import QuantArena.Matcher.Adapter
import QuantArena.Matcher.AdapterProperties
import QuantArena.Matcher.Runs
import QuantArena.Matcher.SnapshotProperties
import QuantArena.Matcher.SnapshotCodec
import QuantArena.Matcher.EngineAgreement
import QuantArena.Matcher.Restarts
import QuantArena.Matcher.Runner
import QuantArena.Matcher.RunnerProperties
import QuantArena.Matcher.Recovery
import QuantArena.Exchange.Quantities
import QuantArena.Matcher.Quantities
import QuantArena.Ledger.Ledger
import QuantArena.Ledger.Conservation
import QuantArena.Foundations.Heap
import QuantArena.Fanout.State
import QuantArena.Engine.Cpp.StreamEngineProperties
import QuantArena.Engine.Cpp.StreamEngineSteps
import QuantArena.Engine.Cpp.StreamEngineRestore
import QuantArena.Foundations.Mirror
import QuantArena.Foundations.Run
import QuantArena.Foundations.Json
import QuantArena.Foundations.Canonical
import QuantArena.Exchange.OpenOrders
import QuantArena.Ledger.Follows
import QuantArena.Ledger.ReadModel
import QuantArena.Ledger.ReadModelProperties
import QuantArena.Ledger.Checkpoint
import QuantArena.Fanout.Bars
import QuantArena.Fanout.Book
import QuantArena.Fanout.Follows
import QuantArena.Fanout.Checkpoint
import QuantArena.Gateway.Risk
import QuantArena.Gateway.Orders
import QuantArena.Gateway.Idempotency
import QuantArena.Gateway.IdempotencyProperties
import QuantArena.Gateway.Producer
import QuantArena.Gateway.ProducerProperties
import QuantArena.Gateway.Registration
import QuantArena.Gateway.RegistrationProperties
import QuantArena.Gateway.Reservations
import QuantArena.Gateway.Accounts
import QuantArena.Gateway.System
import QuantArena.Gateway.SystemProperties
import QuantArena.Gateway.Exactness
import QuantArena.Projections.Agreement
import QuantArena.Foundations.Retained
import QuantArena.Gateway.Cancellation
import QuantArena.Gateway.Pending
import QuantArena.Gateway.Overdraft
import QuantArena.Matcher.Engines
import QuantArena.Gateway.Acceptance
import QuantArena.Checkpointing.Checkpoint
import QuantArena.Checkpointing.CheckpointProperties
import QuantArena.Fanout.Subscribers
import QuantArena.Fanout.SubscribersProperties
import QuantArena.Fanout.Delivery
import QuantArena.Fanout.Messages
import QuantArena.Fanout.Hub
import QuantArena.Fanout.Private
import QuantArena.Fanout.Halt
import QuantArena.Fanout.Conflation
import QuantArena.Fanout.Service
import QuantArena.Fanout.ConflationProperties
import QuantArena.Fanout.PrivateProperties
import QuantArena.Fanout.ServiceProperties
import QuantArena.Fanout.PrivateStream
import QuantArena.Fanout.Reading
import QuantArena.Fanout.Freshness
import QuantArena.Fanout.HaltIndicator
import QuantArena.Fanout.Stamps
import QuantArena.Foundations.Double
import QuantArena.Archiver.Crashes
import QuantArena.Archiver.Rewrites
import QuantArena.Archiver.Stops
import QuantArena.Web.Client
import QuantArena.Web.ClientProperties
import QuantArena.Fanout.HubIndexes
import QuantArena.Fanout.Candles
import QuantArena.Web.Buffer
import QuantArena.Backtest.RealisedPnl
import QuantArena.Foundations.Lockstep
import QuantArena.Gateway.Solvency
import QuantArena.Gateway.RiskCheckpoint
import QuantArena.Backtest.Bars
import QuantArena.Bots.Quoting
import QuantArena.Gateway.RateLimit
import QuantArena.Scripts.TraceProperties
import QuantArena.Contracts.Emitted
import QuantArena.Contracts.OneLayout
import QuantArena.Gateway.Resuming
import QuantArena.Gateway.Restarts
import QuantArena.Gateway.RestartsProperties
import QuantArena.Web.Answers
import QuantArena.Web.Convergence
import QuantArena.Contracts.Wire
import QuantArena.Contracts.WireProperties
import QuantArena.Engine.Cpp.Worker
import QuantArena.Engine.Cpp.WorkerProperties
import QuantArena.Foundations.Tail
import QuantArena.Gateway.ReadRecords
import QuantArena.Matcher.CppExactlyOnce
import QuantArena.Fanout.Process
import QuantArena.Fanout.ProcessProperties
import QuantArena.Fanout.Quotes
import QuantArena.Fanout.Attended
import QuantArena.Ledger.Process
import QuantArena.Ledger.ProcessProperties
import QuantArena.Ledger.TableConservation
import QuantArena.Web.MarketData
import QuantArena.Web.Screen
import QuantArena.Web.ScreenPaints
import QuantArena.Web.ScreenProperties
import QuantArena.Web.ScreenRuns
import QuantArena.Web.TraderBook
