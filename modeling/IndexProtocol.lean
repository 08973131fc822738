import IndexProtocol.Evm.Result
import IndexProtocol.Evm.Loops
import IndexProtocol.Evm.Checked
import IndexProtocol.Evm.Bytes
import IndexProtocol.Evm.Abi
import IndexProtocol.Evm.Registry
import IndexProtocol.Evm.Program
import IndexProtocol.ArrayUtils
import IndexProtocol.ArrayUtils.Loops
import IndexProtocol.Rounding
import IndexProtocol.Rounding.Quotient
import IndexProtocol.PreciseUnitMath
import IndexProtocol.PreciseUnitMath.Exact
import IndexProtocol.Erc20
import IndexProtocol.Registry
import IndexProtocol.Controller
import IndexProtocol.Controller.Registries
import IndexProtocol.SetToken.State
import IndexProtocol.SetToken.Privileged
import IndexProtocol.SetToken.Position
import IndexProtocol.SetToken.Portfolio
import IndexProtocol.SetToken.Edits
import IndexProtocol.SetToken.Creation
import IndexProtocol.SetToken.Representation
import IndexProtocol.SetToken.Units
import IndexProtocol.SetToken.Lock
import IndexProtocol.World
import IndexProtocol.ModuleBase
import IndexProtocol.Pool
import IndexProtocol.ScaledPool
import IndexProtocol.Accumulator
import IndexProtocol.BoundedCurve
import IndexProtocol.Checkpoints
import IndexProtocol.Delegation
import IndexProtocol.Slots
import IndexProtocol.NumberText
import IndexProtocol.Issuance.Basic
import IndexProtocol.Fees.Streaming
import IndexProtocol.Fees.Compounding
import IndexProtocol.Issuance.Collateral
import IndexProtocol.Issuance.Debt
import IndexProtocol.Issuance.DebtV2
import IndexProtocol.Issuance.Fees
import IndexProtocol.Issuance.Equity
import IndexProtocol.Morpho.SharesMath
import IndexProtocol.Morpho.Blue
import IndexProtocol.Morpho.Reference
import IndexProtocol.Morpho.Accrual
import IndexProtocol.Leverage.Module
import IndexProtocol.Leverage.Sync
import IndexProtocol.Leverage.Hooks
import IndexProtocol.Leverage.Acceptance
import IndexProtocol.Leverage.Settlement
import IndexProtocol.Leverage.Circulation
import IndexProtocol.Leverage.Removal
import IndexProtocol.Leverage.Lifecycle
import IndexProtocol.Leverage.Effects
import IndexProtocol.Leverage.Clearing
import IndexProtocol.Manager.BaseManager
import IndexProtocol.Manager.Authorization
import IndexProtocol.Manager.Upgrades
import IndexProtocol.Manager.ManagerCore
import IndexProtocol.Manager.Permissions
import IndexProtocol.Manager.DelegatedManager
import IndexProtocol.Fees.FeeSplit
import IndexProtocol.Fees.Notice
import IndexProtocol.Strategy.Settings
import IndexProtocol.Strategy.Calculations
import IndexProtocol.Strategy.Extension
import IndexProtocol.Strategy.Keeper
import IndexProtocol.Strategy.Emergency
import IndexProtocol.Strategy.Run
import IndexProtocol.Strategy.Exchanges
import IndexProtocol.Strategy.Twap
import IndexProtocol.Strategy.Direction
import IndexProtocol.Strategy.Preview
import IndexProtocol.Strategy.Sizing
import IndexProtocol.Auction.Module
import IndexProtocol.Auction.Targets
import IndexProtocol.Auction.Bid
import IndexProtocol.Auction.Unlock
import IndexProtocol.Auction.Run
import IndexProtocol.Auction.PriceCurves
import IndexProtocol.Auction.Bidders
import IndexProtocol.Auction.Optimistic
import IndexProtocol.Auction.OptimisticV1
import IndexProtocol.Auction.Undisputed
import IndexProtocol.Auction.AncillaryData
import IndexProtocol.Auction.ClaimText
import IndexProtocol.Issuance.SupplyCap
import IndexProtocol.Issuance.Quote
import IndexProtocol.Issuance.DebtV3
import IndexProtocol.Global.BaseExtension
import IndexProtocol.Global.Claim
import IndexProtocol.Global.Optimistic
import IndexProtocol.Global.Isolation
import IndexProtocol.Migration.Extension
import IndexProtocol.Migration.Lenders
import IndexProtocol.Nav.Module
import IndexProtocol.Nav.Collateral
import IndexProtocol.Staking.Rewards
import IndexProtocol.Staking.Solvency
import IndexProtocol.Token.Vesting
import IndexProtocol.Token.IndexPowah
import IndexProtocol.Token.IndexToken
import IndexProtocol.Token.Votes
import IndexProtocol.Bitmap
import IndexProtocol.Token.MerkleDistributor
import IndexProtocol.GeneralIndex.Module
import IndexProtocol.GeneralIndex.Traders
import IndexProtocol.GeneralIndex.Trade
import IndexProtocol.GeneralIndex.Run
import IndexProtocol.GeneralIndex.Extension
import IndexProtocol.Claim.Module
import IndexProtocol.Airdrop.Tracking
import IndexProtocol.Airdrop.Module
import IndexProtocol.Trading.Backing
import IndexProtocol.Airdrop.Run
import IndexProtocol.Trading.TradeModule
import IndexProtocol.Trading.WrapModule
import IndexProtocol.Trading.Rebasing
import IndexProtocol.Trading.Holdings
import IndexProtocol.Trading.ManagedFund
import IndexProtocol.Exchange.ZeroExApi
import IndexProtocol.PathFormat
import IndexProtocol.Exchange.UniswapV3
import IndexProtocol.Exchange.AmmSplitter
import IndexProtocol.Exchange.UniswapV2
import IndexProtocol.Exchange.AmmRouting
import IndexProtocol.Exchange.AmmQuotes
import IndexProtocol.SetValuer
import IndexProtocol.TargetWeight.Extension
import IndexProtocol.TargetWeight.Weights
import IndexProtocol.Staking.Module
import IndexProtocol.Staking.Records
