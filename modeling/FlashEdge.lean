import FlashEdge.Theory.Machine
import FlashEdge.Theory.Acceptor
import FlashEdge.Theory.OrderedMap
import FlashEdge.Core.ExecutionCircuitBreaker
import FlashEdge.Core.SingleProbe
import FlashEdge.Orders.LimitOrderEngine
import FlashEdge.Orders.OrderLifecycle
import FlashEdge.Risk.TpSlEngine
import FlashEdge.Risk.CloseLatch
import FlashEdge.Risk.Confirmation
import FlashEdge.Core.MismatchCycles
import FlashEdge.Client.Simulation
import FlashEdge.Client.SimulationLedger
import FlashEdge.Client.FlashClient
import FlashEdge.Client.MagicTradeClient
import FlashEdge.Client.TrustedPrograms
import FlashEdge.Client.AnsweredTrades
import FlashEdge.Core.LateLanding
import FlashEdge.Core.JoinedSubmissions
import FlashEdge.Core.ClientSwitch
import FlashEdge.Security.SigningRate
import FlashEdge.Security.LossLimits
import FlashEdge.Core.ProbedRecovery
import FlashEdge.Client.RecordedExecutions
import FlashEdge.Client.OpenPaths
import FlashEdge.Client.CloseSize
import FlashEdge.Client.ExposureGate
import FlashEdge.Network.EndpointIndex
import FlashEdge.Core.SimulatedFirst
import FlashEdge.Core.InFlightGuard
import FlashEdge.Theory.Decimal
import FlashEdge.Theory.Transducer
import FlashEdge.Theory.Json
import FlashEdge.Theory.JsonRoundTrip
import FlashEdge.Theory.JsonExtent
import FlashEdge.Sdk.FlashSdk
import FlashEdge.Sdk.ParsedResponses
import FlashEdge.Sdk.TradeCalls
import FlashEdge.Sdk.SingleExecution
import FlashEdge.Security.TradingGate
import FlashEdge.Tools.TradeTools
import FlashEdge.Tools.ToolSteps
import FlashEdge.Tools.SwitchedTrading
import FlashEdge.Tools.SessionLosses
import FlashEdge.Tools.PortfolioExposure
import FlashEdge.Tools.SignedTrades
import FlashEdge.Journal.TradeJournal
import FlashEdge.Runtime.RecoveryEngine
import FlashEdge.Runtime.CrashRecovery
import FlashEdge.Theory.Regex
import FlashEdge.Ai.MarketResolver
import FlashEdge.Ai.OpenParser
import FlashEdge.Ai.Interpreter
import FlashEdge.Ai.AmountSuffix
import FlashEdge.Ai.CommandWords
import FlashEdge.Ai.ParserOutcomes
import FlashEdge.Sdk.CommandRoundTrip
import FlashEdge.Monitor.RiskMonitor
import FlashEdge.Monitor.RiskHysteresis
import FlashEdge.Markets.PerfMonitor
import FlashEdge.Markets.SafeMode
import FlashEdge.Wallet.WalletStore
import FlashEdge.Wallet.DefaultWallet
import FlashEdge.Data.FlashApi
import FlashEdge.Data.RecordedResults
import FlashEdge.Cli.JsonResponse
import FlashEdge.Cli.ResponseSchema
import FlashEdge.Cli.TerminalSession
import FlashEdge.Cli.ConfirmedActions
import FlashEdge.Wallet.WalletManager
import FlashEdge.Wallet.WalletBalances
import FlashEdge.Shadow.ShadowEngine
import FlashEdge.Shadow.MirroredPositions
import FlashEdge.Earn.EarnTools
import FlashEdge.Earn.EarnProfit
import FlashEdge.Cli.AgentOutput
import FlashEdge.Sdk.AgentResponses
import FlashEdge.Cli.PromptSession
import FlashEdge.Cli.PromptAnswers
import FlashEdge.Cli.LateActions
import FlashEdge.Wallet.WalletSession
import FlashEdge.Cli.InputHandler
import FlashEdge.Cli.SignedByKey
import FlashEdge.Cli.RestoredWallet
import FlashEdge.Wallet.SessionTrades
import FlashEdge.Cli.GatedTrades
import FlashEdge.Core.StateCache
import FlashEdge.Core.ValidAccounts
import FlashEdge.Network.ResultHistory
import FlashEdge.Network.SlotReports
import FlashEdge.Theory.ListSlot
import FlashEdge.Theory.CountedOff
import FlashEdge.Network.RpcManager
import FlashEdge.Core.LeaderRouter
import FlashEdge.Core.BroadcastOrder
import FlashEdge.Core.RightBroadcasts
import FlashEdge.Theory.OnDemand
import FlashEdge.Orders.PolledOrders
import FlashEdge.Orders.OrderCapacity
import FlashEdge.Risk.PolledTargets
import FlashEdge.Theory.Throwing
import FlashEdge.Client.AtomicTrades
import FlashEdge.Data.PriceService
import FlashEdge.Client.LivePrices
import FlashEdge.Client.FreshPrices
import FlashEdge.Utils.ProtocolFees
import FlashEdge.Utils.FreshRates
import FlashEdge.Theory.Retention
import FlashEdge.Journal.KeptTrades
import FlashEdge.Client.PaperPositions
import FlashEdge.Client.MergedPositions
import FlashEdge.Client.LiquidationThreshold
import FlashEdge.Client.RemovedCollateral
import FlashEdge.Client.PartialCloses
import FlashEdge.Core.BreakerLimits
import FlashEdge.Client.ApiBroadcast
import FlashEdge.Core.PriorityFee
import FlashEdge.Core.ComputeLimits
import FlashEdge.Core.ConfirmationWait
import FlashEdge.Core.FreshBlockhash
import FlashEdge.Core.Scheduler
import FlashEdge.Core.ThrottledTasks
import FlashEdge.Core.OverlappingRuns
import FlashEdge.Js
import FlashEdge.Portfolio.PortfolioManager
import FlashEdge.Portfolio.CheckedCollateral
import FlashEdge.Risk.LiquidationRisk
import FlashEdge.Transaction.InstructionAggregator
import FlashEdge.Client.TriggeredCloses
import FlashEdge.Portfolio.Rebalance
import FlashEdge.Portfolio.FollowedSuggestions
import FlashEdge.Portfolio.JointLimits
import FlashEdge.Theory.Captures
import FlashEdge.Theory.ForcedReadings
import FlashEdge.Ai.OfflineInterpreter
import FlashEdge.Ai.FollowUps
import FlashEdge.Ai.IncreasedCollateral
import FlashEdge.Ai.ContextPairs
import FlashEdge.Ai.CloseReadings
import FlashEdge.Ai.WholeCloses
import FlashEdge.Data.PriceDeviations
import FlashEdge.Theory.WordMatches
import FlashEdge.Ai.TokenTexts
import FlashEdge.Ai.OpenTokens
import FlashEdge.Ai.OpenSpaces
import FlashEdge.Ai.OpenOrders
import FlashEdge.System.AsyncSemaphore
import FlashEdge.System.CommandThrottle
import FlashEdge.Theory.Bisection
import FlashEdge.Monitor.SuggestedCollateral
import FlashEdge.Theory.EditDistance
import FlashEdge.Ai.NearestMarket
import FlashEdge.Utils.Retry
import FlashEdge.Wallet.TokenSymbols
import FlashEdge.Tools.OrderCommands
import FlashEdge.Theory.Descent
import FlashEdge.Ai.NameWords
import FlashEdge.Ai.NameStems
import FlashEdge.Ai.ResolvedMarkets
import FlashEdge.Theory.RingBuffer
import FlashEdge.Theory.OrderStatistics
import FlashEdge.Observability.Metrics
import FlashEdge.System.Health
import FlashEdge.Markets.MarketQualification
import FlashEdge.Sdk.Watch
import FlashEdge.JsNumberText
import FlashEdge.Earn.PoolData
import FlashEdge.Scanner.MarketScanner
import FlashEdge.Cli.MagicOpen
import FlashEdge.Theory.CaseMatches
import FlashEdge.Ai.CaseFolding
import FlashEdge.Cli.MagicDispatcher
import FlashEdge.Cli.MagicSpellings
import FlashEdge.Cli.MagicValues
import FlashEdge.Theory.Tally
import FlashEdge.Cli.TradePredictor
import FlashEdge.Cli.PreferredLeverage
import FlashEdge.Data.MarketHours
import FlashEdge.Core.ApiHealthGuard
import FlashEdge.Ai.LearnedAliases
