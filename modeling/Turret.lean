import Turret.ERC4626
import Turret.Library.SwapPop
import Turret.Isolated.CapitalPool
import Turret.Isolated.PoolBooks
import Turret.CreditPosition
import Turret.Isolated.CreditEngine
import Turret.Isolated.EngineCalls
import Turret.Isolated.Repayment
import Turret.Isolated.EngineSteps
import Turret.Isolated.Reconciliation
import Turret.LenderVault
import Turret.Variable.CapitalPool
import Turret.Variable.Rate
import Turret.SharePrice
import Turret.Variable.RateSync
import Turret.Variable.CreditEngine
import Turret.Variable.EngineBooks
import Turret.Variable.Scripts
import Turret.Variable.Repayment
import Turret.Variable.EngineSteps
import Turret.Variable.Reconciliation
import Turret.Variable.PoolCheck
import Turret.Variable.ExactDebt
import Turret.Library.Payments
import Turret.Rewards.BorrowerCashback
import Turret.Rewards.CashbackBooks
import Turret.Rewards.CashbackBudget
import Turret.Library.StreamShare
import Turret.Library.Rounding
import Turret.Rewards.LenderRewards
import Turret.Rewards.LenderRewardsBooks
import Turret.Rewards.LenderRewardsSolvency
import Turret.Rewards.RewardStream
import Turret.Rewards.StreamBooks
import Turret.Cashback.Accounting
import Turret.Cashback.Allocation
import Turret.Cashback.Entitlements
import Turret.Cashback.Ledger
import Turret.Cashback.LedgerRuns
import Turret.Cashback.LedgerSync
import Turret.Cashback.QuoteReplay
import Turret.Cashback.LoanReplay
import Turret.Cashback.WalletReplay
import Turret.Library.Tasks
import Turret.Liquidator.Intents
import Turret.Liquidator.Spending
import Turret.Liquidator.Indexer
import Turret.Liquidator.Discovery
import Turret.Liquidator.DiscoveryRuns
import Turret.Rewards.StreamSolvency
import Turret.Rewards.StreamRuns
import Turret.Rewards.RecoverableSolvency
import Turret.Rewards.SubsidyRecovery
import Turret.Rewards.StreamPaths
import Turret.Rewards.PathIndependence
import Turret.ActiveLoans.Checkpoints
import Turret.ActiveLoans.Results
import Turret.ActiveLoans.Runs
import Turret.Executors.AtomicLiquidator
import Turret.Executors.StockDirectLiquidator
import Turret.FacilityLoans.Commits
import Turret.FacilityLoans.Listings
import Turret.FacilityLoans.Runs
import Turret.Negotiations.Exclusivity
import Turret.Negotiations.Funding
import Turret.Oracles.Circuit
import Turret.Oracles.DualOracle
import Turret.Oracles.LargeMoves
import Turret.Oracles.ThresholdFeed
import Turret.Stock.Admission
import Turret.Alerts.Delivery
import Turret.Alerts.Invariants
import Turret.Alerts.Observations
import Turret.Alerts.Passes
import Turret.Alerts.Runs
import Turret.FeeIntents.Attribution
import Turret.FeeIntents.Changes
import Turret.FeeIntents.Runs
import Turret.Isolated.Liquidations
import Turret.LenderExits
import Turret.Library.Bytes
import Turret.Oracles.PythFormat
import Turret.Oracles.PythUpdates
import Turret.P2P.ActiveLoanPages
import Turret.P2P.Extensions
import Turret.P2P.FacilityAccounts
import Turret.P2P.QuoteCapacity
import Turret.P2P.HistoryPages
import Turret.P2P.SplitDraws
import Turret.P2P.Waterfall
import Turret.Requests.Actions
import Turret.Requests.Runs
import Turret.Rewards.FeeRouter
import Turret.Rewards.FeeSplit
import Turret.Variable.Liquidations
import Turret.Oracles.V3TwapFeed
import Turret.Oracles.TwapPaths
import Turret.PositionHealth
import Turret.CreditVault.Resolution
import Turret.Oracles.CorroboratedFeed
import Turret.P2P.StandingOffers
import Turret.BorrowEstimate
import Turret.P2P.QuoteAssessment
import Turret.Rewards.BuybackLimits
import Turret.Library.RoundedPower
import Turret.Rewards.StreamDecay
import Turret.Rewards.StakingExactness
import Turret.RiskMonitor.Admission
import Turret.RiskMonitor.Approvals
import Turret.P2P.ReminderFile
import Turret.P2P.NonceRecovery
import Turret.Variable.Acts
import Turret.Variable.Histories
import Turret.P2P.CreditBooks
import Turret.P2P.VaultIsolation
import Turret.P2P.CreditRepayment
import Turret.P2P.LendingV2
import Turret.P2P.PooledEscrow
import Turret.P2P.NFTIndex
