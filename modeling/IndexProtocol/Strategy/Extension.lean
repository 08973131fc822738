import IndexProtocol.Leverage.Module
import IndexProtocol.Manager.BaseManager
import IndexProtocol.Strategy.Calculations

/-! The MorphoLeverageStrategyExtension: a SetToken kept at a target leverage.

The extension has the manager call the leverage module, to lever up or down
toward the target. A rebalance too large for one trade is cut into chunks: the
ratio it aims at is stored in `twapLeverageRatio` and later calls go on from
there. Keepers call `rebalance` and `iterateRebalance`, anybody `ripcord` above
the incentivized ratio, the operator `engage` and `disengage`. A function that
trades returns what its event says and the call of the module that it made. -/
namespace IndexProtocol
open Evm PreciseUnitMath

structure ContractSettings where
  leverageModule : Address
  collateralAsset : Address
  borrowAsset : Address

structure StrategyExtension where
  self : Address
  overrideNoRebalanceInProgress : Bool
  strategy : ContractSettings
  methodology : MethodologySettings
  execution : ExecutionSettings
  exchangeSettings : String → ExchangeSettings
  incentive : IncentiveSettings
  enabledExchanges : List String
  twapLeverageRatio : Nat
  globalLastTradeTimestamp : Nat
  anyoneCallable : Bool
  callAllowList : Address → Bool

/-- The extension with its manager, the SetToken's world, the oracles and the balances of ether. -/
structure StrategyWorld (μ : Type) where
  extension : StrategyExtension
  manager : BaseManager
  world : LeverageWorld μ
  /-- The price that the oracle at an address returns. -/
  oraclePrice : Address → Result Nat
  ether : Address → Nat

/-- The sender of a call and of its transaction. -/
structure Caller where
  sender : Address
  origin : Address

/-- The calls of the leverage module, as the extension encodes them. -/
inductive ModuleCall where
  | enterCollateralPosition
  | lever (borrowQuantityUnits minReceiveQuantityUnits : Nat) (tradeAdapterName : String)
    (tradeData : List UInt8)
  | delever (redeemQuantityUnits minRepayQuantityUnits : Nat) (tradeAdapterName : String)
    (tradeData : List UInt8)
  | deleverToZeroBorrowBalance (redeemQuantityUnits : Nat) (tradeAdapterName : String)
    (tradeData : List UInt8)
  deriving DecidableEq, Repr

/-- The event of a function that may trade, with the call of the module. -/
structure Executed where
  currentLeverageRatio : Nat
  newLeverageRatio : Nat
  chunkRebalanceNotional : Nat
  totalRebalanceNotional : Nat
  trade : Option ModuleCall
  deriving DecidableEq, Repr

inductive ShouldRebalance where
  | none
  | rebalance
  | iterateRebalance
  | ripcord
  deriving DecidableEq, Repr

namespace ModuleCall
variable {μ : Type}

def run (morpho : Morpho.MorphoBlue μ) (module : Address) (exchanges : Address → ExchangeAdapter)
    (sender : Address) (w : LeverageWorld μ) : ModuleCall → Result (LeverageWorld μ)
  | .enterCollateralPosition => MorphoLeverageModule.enterCollateralPosition morpho module w sender
  | .lever units minUnits adapter data =>
    MorphoLeverageModule.lever morpho module exchanges w sender units minUnits adapter data
  | .delever units minUnits adapter data =>
    MorphoLeverageModule.delever morpho module exchanges w sender units minUnits adapter data
  | .deleverToZeroBorrowBalance units adapter data =>
    MorphoLeverageModule.deleverToZeroBorrowBalance morpho module exchanges w sender units adapter
      data

end ModuleCall

namespace MorphoLeverageStrategyExtension
variable {μ : Type}

/-! ### Modifiers and views -/

section Views
variable (w : StrategyWorld μ) (c : Caller)

def timestamp : Nat := w.world.rest.others.timestamp

def onlyOperator : Result Unit := require (c.sender = w.manager.operator) "Must be operator"

def onlyEOA : Result Unit := require (c.sender = c.origin) "Caller must be EOA Address"

def onlyAllowedCaller : Result Unit :=
  require (w.extension.anyoneCallable = true ∨ w.extension.callAllowList c.sender = true)
    "Address not permitted to call"

def noRebalanceInProgress : Result Unit :=
  if w.extension.overrideNoRebalanceInProgress = false then
    require (w.extension.twapLeverageRatio = 0) "Rebalance is currently in progress"
  else pure ()

variable (morpho : Morpho.MorphoBlue μ)

def createActionInfo : Result ActionInfo := do
  let marketParams := MorphoLeverageModule.params w.world
  let collateralPrice ← w.oraclePrice marketParams.oracle
  require (marketParams.collateralToken ≠ 0) "Collateral not set"
  let (collateralBalance, borrowBalance, _) ←
    MorphoLeverageModule.getCollateralAndBorrowBalances morpho w.world marketParams
  let collateralValue ← valueAt collateralPrice collateralBalance
  pure
    { collateralBalance := collateralBalance
      borrowBalance := borrowBalance
      collateralValue := collateralValue
      collateralPrice := collateralPrice
      setTotalSupply := w.world.setToken.totalSupply
      lltv := marketParams.lltv }

def getCurrentLeverageRatio : Result Nat := do
  let currentLeverageInfo ← createActionInfo w morpho
  calculateCurrentLeverageRatio currentLeverageInfo.collateralValue
    currentLeverageInfo.borrowBalance

/-- A size of 0 stands for an exchange that is not enabled. -/
def getAndValidateLeveragedInfo (slippageTolerance maxTradeSize : Nat) (exchangeName : String) :
    Result LeverageInfo := do
  require (0 < maxTradeSize) "Must be valid exchange"
  let actionInfo ← createActionInfo w morpho
  require (0 < actionInfo.setTotalSupply) "SetToken must have > 0 supply"
  require (0 < actionInfo.collateralBalance) "Collateral balance must be > 0"
  require (0 < actionInfo.borrowBalance) "Borrow balance must exist"
  let currentLeverageRatio ←
    calculateCurrentLeverageRatio actionInfo.collateralValue actionInfo.borrowBalance
  pure
    { action := actionInfo
      currentLeverageRatio := currentLeverageRatio
      slippageTolerance := slippageTolerance
      twapMaxTradeSize := maxTradeSize
      exchangeName := exchangeName }

/-- Not overdue for `ripcord`, and either the cooldown has elapsed or the ratio is out of bounds. -/
def validateNormalRebalance (leverageInfo : LeverageInfo) (coolDown lastTradeTimestamp : Nat) :
    Result Unit := do
  require (leverageInfo.currentLeverageRatio < w.extension.incentive.incentivizedLeverageRatio)
    "Must be below incentivized leverage ratio"
  let elapsed ← SafeMath.sub (timestamp w) lastTradeTimestamp
  require (coolDown < elapsed ∨
    w.extension.methodology.maxLeverageRatio < leverageInfo.currentLeverageRatio ∨
    leverageInfo.currentLeverageRatio < w.extension.methodology.minLeverageRatio)
    "Cooldown not elapsed or not valid leverage ratio"

def validateRipcord (leverageInfo : LeverageInfo) (lastTradeTimestamp : Nat) : Result Unit := do
  require (w.extension.incentive.incentivizedLeverageRatio ≤ leverageInfo.currentLeverageRatio)
    "Must be above incentivized leverage ratio"
  let ready ← SafeMath.add lastTradeTimestamp w.extension.incentive.incentivizedTwapCooldownPeriod
  require (ready < timestamp w) "TWAP cooldown must have elapsed"

def validateTWAP : Result Unit :=
  require (0 < w.extension.twapLeverageRatio) "Not in TWAP state"

def validateNonTWAP : Result Unit :=
  require (w.extension.twapLeverageRatio = 0) "Must call iterate"

/-- The ratio has passed the one that is aimed at, so there is nothing left to trade. -/
def isAdvantageousTWAP (currentLeverageRatio : Nat) : Bool :=
  let twap := w.extension.twapLeverageRatio
  let target := w.extension.methodology.targetLeverageRatio
  decide (twap < target ∧ twap ≤ currentLeverageRatio ∨ target < twap ∧ currentLeverageRatio ≤ twap)

end Views

/-! ### Writes -/

section Writes
variable (w : StrategyWorld μ)

def setExtension (f : StrategyExtension → StrategyExtension) : StrategyWorld μ :=
  { w with extension := f w.extension }

def setExchange (name : String) (f : ExchangeSettings → ExchangeSettings) : StrategyWorld μ :=
  setExtension w fun x =>
    { x with exchangeSettings := Function.update x.exchangeSettings name (f (x.exchangeSettings name)) }

/-- Ether sent to a recipient that accepts it. -/
def sendEther (recipient : Address) (amount : Nat) : StrategyWorld μ :=
  let self := w.extension.self
  let ether := Function.update w.ether self (w.ether self - amount)
  { w with ether := Function.update ether recipient (ether recipient + amount) }

def updateLastTradeTimestamp (exchangeName : String) : StrategyWorld μ :=
  let now := timestamp w
  setExchange (setExtension w fun x => { x with globalLastTradeTimestamp := now }) exchangeName
    fun settings => { settings with exchangeLastTradeTimestamp := now }

def setTwap (twapLeverageRatio : Nat) : StrategyWorld μ :=
  setExtension w fun x => { x with twapLeverageRatio := twapLeverageRatio }

/-- Used by `engage` and `rebalance`. -/
def updateRebalanceState (chunkRebalanceNotional totalRebalanceNotional newLeverageRatio : Nat)
    (exchangeName : String) : StrategyWorld μ :=
  let w := updateLastTradeTimestamp w exchangeName
  if chunkRebalanceNotional < totalRebalanceNotional then setTwap w newLeverageRatio else w

/-- Used by `iterateRebalance`. -/
def updateIterateState (chunkRebalanceNotional totalRebalanceNotional : Nat)
    (exchangeName : String) : StrategyWorld μ :=
  let w := updateLastTradeTimestamp w exchangeName
  if chunkRebalanceNotional = totalRebalanceNotional then setTwap w 0 else w

/-- Used by `ripcord`. -/
def updateRipcordState (exchangeName : String) : StrategyWorld μ :=
  let w := updateLastTradeTimestamp w exchangeName
  if 0 < w.extension.twapLeverageRatio then setTwap w 0 else w

/-- Returns what was sent: the reward, or what is left. -/
def transferEtherRewardToCaller (sender : Address) (etherReward : Nat) : StrategyWorld μ × Nat :=
  let balance := w.ether w.extension.self
  let etherToTransfer := if etherReward < balance then etherReward else balance
  (sendEther w sender etherToTransfer, etherToTransfer)

end Writes

/-! ### Calls of the module -/

section Trades
variable (morpho : Morpho.MorphoBlue μ) (exchanges : Address → ExchangeAdapter)

/-- The manager makes the call. -/
def invokeManager (w : StrategyWorld μ) (call : ModuleCall) : Result (StrategyWorld μ) := do
  let module := w.extension.strategy.leverageModule
  let world ← w.manager.interactManager w.extension.self module
    (call.run morpho module exchanges w.manager.self w.world)
  pure { w with world := world }

def leverCallData (x : StrategyExtension) (leverageInfo : LeverageInfo)
    (chunkRebalanceNotional : Nat) : Result ModuleCall := do
  let collateralRebalanceUnits ←
    preciseDiv chunkRebalanceNotional leverageInfo.action.setTotalSupply
  let borrowUnits ← calculateBorrowUnits collateralRebalanceUnits leverageInfo.action
  let minReceiveCollateralUnits ←
    calculateMinCollateralReceiveUnits collateralRebalanceUnits leverageInfo.slippageTolerance
  pure (.lever borrowUnits minReceiveCollateralUnits leverageInfo.exchangeName
    (x.exchangeSettings leverageInfo.exchangeName).leverExchangeData)

def deleverCallData (x : StrategyExtension) (leverageInfo : LeverageInfo)
    (chunkRebalanceNotional : Nat) : Result ModuleCall := do
  let collateralRebalanceUnits ←
    preciseDiv chunkRebalanceNotional leverageInfo.action.setTotalSupply
  let minRepayUnits ← calculateMinRepayUnits collateralRebalanceUnits
    leverageInfo.slippageTolerance leverageInfo.action
  pure (.delever collateralRebalanceUnits minRepayUnits leverageInfo.exchangeName
    (x.exchangeSettings leverageInfo.exchangeName).deleverExchangeData)

/-- The slippage tolerance is added to what is redeemed. -/
def deleverToZeroBorrowBalanceCallData (x : StrategyExtension) (leverageInfo : LeverageInfo)
    (chunkRebalanceNotional : Nat) : Result ModuleCall := do
  let factor ← SafeMath.add preciseUnit x.execution.slippageTolerance
  let maxCollateral ← preciseMul chunkRebalanceNotional factor
  let maxCollateralRebalanceUnits ← preciseDiv maxCollateral leverageInfo.action.setTotalSupply
  pure (.deleverToZeroBorrowBalance maxCollateralRebalanceUnits leverageInfo.exchangeName
    (x.exchangeSettings leverageInfo.exchangeName).deleverExchangeData)

def lever (w : StrategyWorld μ) (leverageInfo : LeverageInfo) (chunkRebalanceNotional : Nat) :
    Result (StrategyWorld μ × ModuleCall) := do
  let call ← leverCallData w.extension leverageInfo chunkRebalanceNotional
  let w ← invokeManager morpho exchanges w call
  pure (w, call)

def delever (w : StrategyWorld μ) (leverageInfo : LeverageInfo) (chunkRebalanceNotional : Nat) :
    Result (StrategyWorld μ × ModuleCall) := do
  let call ← deleverCallData w.extension leverageInfo chunkRebalanceNotional
  let w ← invokeManager morpho exchanges w call
  pure (w, call)

def deleverToZeroBorrowBalance (w : StrategyWorld μ) (leverageInfo : LeverageInfo)
    (chunkRebalanceNotional : Nat) : Result (StrategyWorld μ × ModuleCall) := do
  let call ← deleverToZeroBorrowBalanceCallData w.extension leverageInfo chunkRebalanceNotional
  let w ← invokeManager morpho exchanges w call
  pure (w, call)

/-- Levers or delevers toward the new ratio; returns the chunk, the total and the call. -/
def handleRebalance (w : StrategyWorld μ) (leverageInfo : LeverageInfo) (newLeverageRatio : Nat) :
    Result (StrategyWorld μ × Nat × Nat × ModuleCall) := do
  if newLeverageRatio < leverageInfo.currentLeverageRatio then
    let (chunk, total) ← calculateChunkRebalanceNotional w.extension.execution leverageInfo
      newLeverageRatio false
    let (w, call) ← delever morpho exchanges w leverageInfo chunk
    pure (w, chunk, total, call)
  else
    let (chunk, total) ← calculateChunkRebalanceNotional w.extension.execution leverageInfo
      newLeverageRatio true
    let (w, call) ← lever morpho exchanges w leverageInfo chunk
    pure (w, chunk, total, call)

/-! ### Trading functions -/

variable (w : StrategyWorld μ) (c : Caller) (exchangeName : String)

def engage : Result (StrategyWorld μ × Executed) := do
  onlyOperator w c
  let w ← invokeManager morpho exchanges w .enterCollateralPosition
  let engageInfo ← createActionInfo w morpho
  require (0 < engageInfo.setTotalSupply) "SetToken must have > 0 supply"
  require (0 < engageInfo.collateralBalance) "Collateral balance must be > 0"
  require (engageInfo.borrowBalance = 0) "Debt must be 0"
  let leverageInfo : LeverageInfo :=
    { action := engageInfo
      currentLeverageRatio := preciseUnit
      slippageTolerance := w.extension.execution.slippageTolerance
      twapMaxTradeSize := (w.extension.exchangeSettings exchangeName).twapMaxTradeSize
      exchangeName := exchangeName }
  let target := w.extension.methodology.targetLeverageRatio
  let (chunk, total) ←
    calculateChunkRebalanceNotional w.extension.execution leverageInfo target true
  let (w, call) ← lever morpho exchanges w leverageInfo chunk
  let w := updateRebalanceState w chunk total target exchangeName
  pure (w, ⟨leverageInfo.currentLeverageRatio, target, chunk, total, some call⟩)

def rebalance : Result (StrategyWorld μ × Executed) := do
  onlyEOA c
  onlyAllowedCaller w c
  let leverageInfo ← getAndValidateLeveragedInfo w morpho w.extension.execution.slippageTolerance
    (w.extension.exchangeSettings exchangeName).twapMaxTradeSize exchangeName
  validateNormalRebalance w leverageInfo w.extension.methodology.rebalanceInterval
    w.extension.globalLastTradeTimestamp
  validateNonTWAP w
  let newLeverageRatio ←
    calculateNewLeverageRatio w.extension.methodology leverageInfo.currentLeverageRatio
  let (w, chunk, total, call) ← handleRebalance morpho exchanges w leverageInfo newLeverageRatio
  let w := updateRebalanceState w chunk total newLeverageRatio exchangeName
  pure (w, ⟨leverageInfo.currentLeverageRatio, newLeverageRatio, chunk, total, some call⟩)

/-- Where the ratio has passed the one aimed at, nothing is traded and the rebalance ends. The
event reads the ratio aimed at after it may have been cleared. -/
def iterateRebalance : Result (StrategyWorld μ × Executed) := do
  onlyEOA c
  onlyAllowedCaller w c
  let leverageInfo ← getAndValidateLeveragedInfo w morpho w.extension.execution.slippageTolerance
    (w.extension.exchangeSettings exchangeName).twapMaxTradeSize exchangeName
  validateNormalRebalance w leverageInfo w.extension.execution.twapCooldownPeriod
    (w.extension.exchangeSettings exchangeName).exchangeLastTradeTimestamp
  validateTWAP w
  if isAdvantageousTWAP w leverageInfo.currentLeverageRatio = false then
    let (w, chunk, total, call) ←
      handleRebalance morpho exchanges w leverageInfo w.extension.twapLeverageRatio
    let w := updateIterateState w chunk total exchangeName
    pure (w, ⟨leverageInfo.currentLeverageRatio, w.extension.twapLeverageRatio, chunk, total,
      some call⟩)
  else
    let w := updateIterateState w 0 0 exchangeName
    pure (w, ⟨leverageInfo.currentLeverageRatio, w.extension.twapLeverageRatio, 0, 0, none⟩)

/-- Also returns the ether sent. -/
def ripcord : Result (StrategyWorld μ × Executed × Nat) := do
  onlyEOA c
  let leverageInfo ←
    getAndValidateLeveragedInfo w morpho w.extension.incentive.incentivizedSlippageTolerance
      (w.extension.exchangeSettings exchangeName).incentivizedTwapMaxTradeSize exchangeName
  validateRipcord w leverageInfo (w.extension.exchangeSettings exchangeName).exchangeLastTradeTimestamp
  let maxLeverageRatio := w.extension.methodology.maxLeverageRatio
  let (chunk, total) ← calculateChunkRebalanceNotional w.extension.execution leverageInfo
    maxLeverageRatio false
  let (w, call) ← delever morpho exchanges w leverageInfo chunk
  let w := updateRipcordState w exchangeName
  let (w, etherTransferred) :=
    transferEtherRewardToCaller w c.sender w.extension.incentive.etherReward
  pure (w, ⟨leverageInfo.currentLeverageRatio, maxLeverageRatio, chunk, total, some call⟩,
    etherTransferred)

/-- Does not touch the state of a rebalance in progress. -/
def disengage : Result (StrategyWorld μ × Executed) := do
  onlyOperator w c
  let leverageInfo ← getAndValidateLeveragedInfo w morpho w.extension.execution.slippageTolerance
    (w.extension.exchangeSettings exchangeName).twapMaxTradeSize exchangeName
  let newLeverageRatio := preciseUnit
  let (chunk, total) ← calculateChunkRebalanceNotional w.extension.execution leverageInfo
    newLeverageRatio false
  let (w, call) ← (if chunk < total then delever morpho exchanges w leverageInfo chunk
    else deleverToZeroBorrowBalance morpho exchanges w leverageInfo total)
  pure (w, ⟨leverageInfo.currentLeverageRatio, newLeverageRatio, chunk, total, some call⟩)

end Trades

/-! ### Settings -/

section Setters
variable (w : StrategyWorld μ) (c : Caller)

/-- The checks of the settings after one was written. -/
def validateSettings (x : StrategyExtension) : Result Unit :=
  validateNonExchangeSettings x.methodology x.execution x.incentive

def setOverrideNoRebalanceInProgress (override : Bool) : Result (StrategyWorld μ) := do
  onlyOperator w c
  pure (setExtension w fun x => { x with overrideNoRebalanceInProgress := override })

/-- Writes settings and checks them, outside of a rebalance. -/
def setSettings (f : StrategyExtension → StrategyExtension) : Result (StrategyWorld μ) := do
  onlyOperator w c
  noRebalanceInProgress w
  let w := setExtension w f
  validateSettings w.extension
  pure w

def setMethodologySettings (newSettings : MethodologySettings) : Result (StrategyWorld μ) :=
  setSettings w c fun x => { x with methodology := newSettings }

def setExecutionSettings (newSettings : ExecutionSettings) : Result (StrategyWorld μ) :=
  setSettings w c fun x => { x with execution := newSettings }

def setIncentiveSettings (newSettings : IncentiveSettings) : Result (StrategyWorld μ) :=
  setSettings w c fun x => { x with incentive := newSettings }

/-- A new exchange has not traded yet, whatever its settings say. -/
def addEnabledExchange (exchangeName : String) (settings : ExchangeSettings) :
    Result (StrategyWorld μ) := do
  onlyOperator w c
  require ((w.extension.exchangeSettings exchangeName).twapMaxTradeSize = 0)
    "Exchange already enabled"
  validateExchangeSettings settings
  let w := setExchange w exchangeName fun _ => { settings with exchangeLastTradeTimestamp := 0 }
  pure (setExtension w fun x => { x with enabledExchanges := x.enabledExchanges ++ [exchangeName] })

def removeEnabledExchange (exchangeName : String) : Result (StrategyWorld μ) := do
  onlyOperator w c
  require ((w.extension.exchangeSettings exchangeName).twapMaxTradeSize ≠ 0) "Exchange not enabled"
  let w := setExchange w exchangeName fun _ => .empty
  let enabledExchanges ← StringArrayUtils.removeStorage w.extension.enabledExchanges exchangeName
  pure (setExtension w fun x => { x with enabledExchanges := enabledExchanges })

/-- The time of the last trade stays. -/
def updateEnabledExchange (exchangeName : String) (settings : ExchangeSettings) :
    Result (StrategyWorld μ) := do
  onlyOperator w c
  require ((w.extension.exchangeSettings exchangeName).twapMaxTradeSize ≠ 0) "Exchange not enabled"
  validateExchangeSettings settings
  pure (setExchange w exchangeName fun old =>
    { settings with exchangeLastTradeTimestamp := old.exchangeLastTradeTimestamp })

def withdrawEtherBalance : Result (StrategyWorld μ) := do
  onlyOperator w c
  noRebalanceInProgress w
  pure (sendEther w c.sender (w.ether w.extension.self))

def updateCallerStatus (callers : List Address) (statuses : List Bool) :
    Result (StrategyWorld μ) := do
  onlyOperator w c
  require (callers.length = statuses.length) "Array length mismatch"
  require (0 < callers.length) "Array length must be > 0"
  let duplicate ← AddressArrayUtils.hasDuplicate callers
  require (duplicate = false) "Cannot duplicate callers"
  pure (setExtension w fun x =>
    { x with
      callAllowList := (callers.zip statuses).foldl
        (fun list entry => Function.update list entry.1 entry.2) x.callAllowList })

def updateAnyoneCallable (status : Bool) : Result (StrategyWorld μ) := do
  onlyOperator w c
  pure (setExtension w fun x => { x with anyoneCallable := status })

end Setters

/-- The constructor's loop over exchanges. -/
def enableExchange (x : StrategyExtension) (entry : String × ExchangeSettings) :
    Result StrategyExtension := do
  validateExchangeSettings entry.2
  pure { x with
    exchangeSettings := Function.update x.exchangeSettings entry.1 entry.2
    enabledExchanges := x.enabledExchanges ++ [entry.1] }

/-- The constructor. A name without settings is out of range of their array. -/
def deploy (self : Address) (strategy : ContractSettings) (methodology : MethodologySettings)
    (execution : ExecutionSettings) (incentive : IncentiveSettings) (exchangeNames : List String)
    (exchangeSettings : List ExchangeSettings) : Result StrategyExtension := do
  let x : StrategyExtension :=
    { self := self
      overrideNoRebalanceInProgress := false
      strategy := strategy
      methodology := methodology
      execution := execution
      exchangeSettings := fun _ => .empty
      incentive := incentive
      enabledExchanges := []
      twapLeverageRatio := 0
      globalLastTradeTimestamp := 0
      anyoneCallable := false
      callAllowList := fun _ => false }
  require (exchangeNames.length ≤ exchangeSettings.length) "invalid opcode"
  let x ← runs enableExchange x (exchangeNames.zip exchangeSettings)
  validateSettings x
  pure x

/-! ### What keepers read -/

section Keepers
variable (w : StrategyWorld μ) (morpho : Morpho.MorphoBlue μ)

/-- The answer for one exchange. -/
def shouldRebalanceExchange (currentLeverageRatio minLeverageRatio maxLeverageRatio : Nat)
    (exchangeName : String) : Result ShouldRebalance := do
  let x := w.extension
  let last := (x.exchangeSettings exchangeName).exchangeLastTradeTimestamp
  if x.incentive.incentivizedLeverageRatio ≤ currentLeverageRatio then
    let ready ← SafeMath.add last x.incentive.incentivizedTwapCooldownPeriod
    pure (if ready < timestamp w then .ripcord else .none)
  else if 0 < x.twapLeverageRatio then
    let ready ← SafeMath.add last x.execution.twapCooldownPeriod
    pure (if ready < timestamp w then .iterateRebalance else .none)
  else
    let elapsed ← SafeMath.sub (timestamp w) x.globalLastTradeTimestamp
    pure (if x.methodology.rebalanceInterval < elapsed ∨ maxLeverageRatio < currentLeverageRatio ∨
      currentLeverageRatio < minLeverageRatio then .rebalance else .none)

/-- The names of the enabled exchanges and the answers for them. -/
def shouldRebalanceWithin (currentLeverageRatio minLeverageRatio maxLeverageRatio : Nat) :
    Result (List String × List ShouldRebalance) := do
  let enums ← w.extension.enabledExchanges.mapM
    (shouldRebalanceExchange w currentLeverageRatio minLeverageRatio maxLeverageRatio)
  pure (w.extension.enabledExchanges, enums)

def shouldRebalance : Result (List String × List ShouldRebalance) := do
  let currentLeverageRatio ← getCurrentLeverageRatio w morpho
  shouldRebalanceWithin w currentLeverageRatio w.extension.methodology.minLeverageRatio
    w.extension.methodology.maxLeverageRatio

def shouldRebalanceWithBounds (customMinLeverageRatio customMaxLeverageRatio : Nat) :
    Result (List String × List ShouldRebalance) := do
  require (customMinLeverageRatio ≤ w.extension.methodology.minLeverageRatio ∧
    w.extension.methodology.maxLeverageRatio ≤ customMaxLeverageRatio) "Custom bounds must be valid"
  let currentLeverageRatio ← getCurrentLeverageRatio w morpho
  shouldRebalanceWithin w currentLeverageRatio customMinLeverageRatio customMaxLeverageRatio

/-- The ratio that `getChunkRebalanceNotional` aims at, and whether it is the one of `ripcord`. -/
def previewRatio (currentLeverageRatio : Nat) : Result (Nat × Bool) := do
  let x := w.extension
  if x.incentive.incentivizedLeverageRatio < currentLeverageRatio then
    pure (x.methodology.maxLeverageRatio, true)
  else if 0 < x.twapLeverageRatio then pure (x.twapLeverageRatio, false)
  else
    let newLeverageRatio ← calculateNewLeverageRatio x.methodology currentLeverageRatio
    pure (newLeverageRatio, false)

/-- The size for one exchange, in the asset sold. -/
def previewSize (actionInfo : ActionInfo) (currentLeverageRatio newLeverageRatio : Nat)
    (isRipcord isLever : Bool) (exchangeName : String) : Result Nat := do
  let x := w.extension
  let settings := x.exchangeSettings exchangeName
  let leverageInfo : LeverageInfo :=
    { action := actionInfo
      currentLeverageRatio := currentLeverageRatio
      slippageTolerance := if isRipcord then x.incentive.incentivizedSlippageTolerance
        else x.execution.slippageTolerance
      twapMaxTradeSize := if isRipcord then settings.incentivizedTwapMaxTradeSize
        else settings.twapMaxTradeSize
      exchangeName := exchangeName }
  let (collateralNotional, _) ←
    calculateChunkRebalanceNotional x.execution leverageInfo newLeverageRatio isLever
  if isLever then calculateBorrowUnits collateralNotional actionInfo else pure collateralNotional

/-- The sizes for the exchanges, the asset sold and the asset bought. -/
def getChunkRebalanceNotional (exchangeNames : List String) :
    Result (List Nat × Address × Address) := do
  let currentLeverageRatio ← getCurrentLeverageRatio w morpho
  let (newLeverageRatio, isRipcord) ← previewRatio w currentLeverageRatio
  let actionInfo ← createActionInfo w morpho
  let isLever := decide (currentLeverageRatio < newLeverageRatio)
  let sizes ← exchangeNames.mapM
    (previewSize w actionInfo currentLeverageRatio newLeverageRatio isRipcord isLever)
  let strategy := w.extension.strategy
  pure (sizes, if isLever then strategy.borrowAsset else strategy.collateralAsset,
    if isLever then strategy.collateralAsset else strategy.borrowAsset)

def getCurrentEtherIncentive : Result Nat := do
  let currentLeverageRatio ← getCurrentLeverageRatio w morpho
  let etherReward := w.extension.incentive.etherReward
  let balance := w.ether w.extension.self
  if w.extension.incentive.incentivizedLeverageRatio ≤ currentLeverageRatio then
    pure (if etherReward < balance then etherReward else balance)
  else pure 0

end Keepers

end MorphoLeverageStrategyExtension

end IndexProtocol
