import IndexProtocol.Registry
import IndexProtocol.Auction.Module

/-! The GeneralIndexModule: a SetToken is rebalanced by trades of its components for WETH.

The manager sets a target unit for each component, a size that one trade may have, and
an exchange. Permitted traders then trade one component at a time, towards its target.
`module` is this module's address, `adapters` are the exchange adapters by address, and
`exchange` is what a call of an exchange by the SetToken does. No call re-enters the
module. -/
namespace IndexProtocol
open Evm PreciseUnitMath ModuleBase

namespace GeneralIndexModule

structure TradeExecutionParams where
  targetUnit : Nat
  maxSize : Nat
  coolOffPeriod : Nat
  lastTradeTimestamp : Nat
  exchangeName : String
  exchangeData : List UInt8

structure TradePermissionInfo where
  anyoneTrade : Bool
  tradersHistory : List Address
  tradeAllowList : Address → Bool

structure RebalanceInfo where
  /-- The multiplier of the SetToken for which the targets are meant. -/
  positionMultiplier : Nat
  raiseTargetPercentage : Nat
  rebalanceComponents : List Address

structure TradeInfo where
  exchangeAdapter : Address
  sendToken : Address
  receiveToken : Address
  isSendTokenFixed : Bool
  setTotalSupply : Nat
  totalFixedQuantity : Nat
  sendQuantity : Nat
  floatingQuantityLimit : Nat
  preTradeSendTokenBalance : Nat
  preTradeReceiveTokenBalance : Nat
  exchangeData : List UInt8

structure ExchangeAdapter where
  getSpender : Address
  /-- The exchange to call, with the value and the data of the call. -/
  getTradeCalldata : (sendToken receiveToken setToken : Address) → (isSendTokenFixed : Bool) →
    (sendQuantity floatingQuantityLimit : Nat) → (exchangeData : List UInt8) →
    Result (Address × Nat × List UInt8)

/-- The state of the module for the SetToken, with the time. -/
structure State where
  timestamp : Nat
  executionInfo : Address → TradeExecutionParams
  permissionInfo : TradePermissionInfo
  rebalanceInfo : RebalanceInfo

def TradeExecutionParams.empty : TradeExecutionParams := ⟨0, 0, 0, 0, "", []⟩

def RebalanceInfo.empty : RebalanceInfo := ⟨0, 0, []⟩

/-- The module at a time, before the SetToken uses it. -/
def State.empty (timestamp : Nat) : State :=
  ⟨timestamp, fun _ => .empty, ⟨false, [], fun _ => false⟩, .empty⟩

end GeneralIndexModule

abbrev IndexWorld := World GeneralIndexModule.State

namespace GeneralIndexModule

def protocolFeeIndex : Nat := 0

/-! ### The state, by field -/

def rebalance (w : IndexWorld) : RebalanceInfo := w.rest.rebalanceInfo

def execution (w : IndexWorld) (component : Address) : TradeExecutionParams :=
  w.rest.executionInfo component

def withRebalance (w : IndexWorld) (info : RebalanceInfo) : IndexWorld :=
  { w with rest := { w.rest with rebalanceInfo := info } }

def withPermission (w : IndexWorld) (info : TradePermissionInfo) : IndexWorld :=
  { w with rest := { w.rest with permissionInfo := info } }

def withExecution (w : IndexWorld) (component : Address) (p : TradeExecutionParams) : IndexWorld :=
  { w with rest := { w.rest with executionInfo := Function.update w.rest.executionInfo component p } }

/-! ### Targets -/

section Views
variable (weth : Address) (w : IndexWorld)

def getDefaultPositionRealUnit (component : Address) : Result Nat := do
  let unit ← w.setToken.getDefaultPositionRealUnit component
  SafeCast.toUint256 unit

/-- The target unit, for the multiplier that the SetToken has now. -/
def getNormalizedTargetUnit (component : Address) : Result Nat := do
  let positionMultiplier ← SafeCast.toUint256 w.setToken.positionMultiplier
  let product ← SafeMath.mul (execution w component).targetUnit positionMultiplier
  SafeMath.div product (rebalance w).positionMultiplier

structure UnitsAndNotionalAmounts where
  currentUnit : Nat
  targetUnit : Nat
  currentNotional : Nat
  targetNotional : Nat

def getUnitsAndNotionalAmounts (component : Address) (totalSupply : Nat) :
    Result UnitsAndNotionalAmounts := do
  let currentUnit ← getDefaultPositionRealUnit w component
  let targetUnit ← getNormalizedTargetUnit w component
  let currentNotional ← Position.getDefaultTotalNotional totalSupply currentUnit
  let targetNotional ← preciseMulCeil totalSupply targetUnit
  pure ⟨currentUnit, targetUnit, currentNotional, targetNotional⟩

/-- WETH has no target to meet here. -/
def targetUnmet (component : Address) : Result Bool := do
  if component = weth then pure false
  else
    let normalizedTargetUnit ← getNormalizedTargetUnit w component
    let currentUnit ← getDefaultPositionRealUnit w component
    if 0 < normalizedTargetUnit then
      let close ← approximatelyEquals normalizedTargetUnit currentUnit 1
      pure (!close)
    else pure (decide (normalizedTargetUnit ≠ currentUnit))

/-- The loop of `_allTargetsMet`, which returns at the first target that is not met. -/
def targetsMet : List Address → Result Bool
  | [] => pure true
  | component :: rest => do
    let unmet ← targetUnmet weth w component
    if unmet then pure false else targetsMet rest

def allTargetsMet : Result Bool := targetsMet weth w (rebalance w).rebalanceComponents

def canSell (component : Address) : Result Bool := do
  if component = weth then pure false
  else
    let normalizedTargetUnit ← getNormalizedTargetUnit w component
    let currentUnit ← getDefaultPositionRealUnit w component
    pure (decide (normalizedTargetUnit < currentUnit))

/-- The loop of `_noTokensToSell`. -/
def noneToSell : List Address → Result Bool
  | [] => pure true
  | component :: rest => do
    let sell ← canSell weth w component
    if sell then pure false else noneToSell rest

def noTokensToSell : Result Bool := noneToSell weth w (rebalance w).rebalanceComponents

def isAllowedTrader (trader : Address) : Bool :=
  w.rest.permissionInfo.anyoneTrade || w.rest.permissionInfo.tradeAllowList trader

def validateOnlyAllowedTrader (trader : Address) : Result Unit :=
  require (isAllowedTrader w trader = true) "Address not permitted to trade"

/-- `origin` is who signed the transaction. -/
def validateOnlyEOAIfUnrestricted (sender origin : Address) : Result Unit :=
  require (w.rest.permissionInfo.anyoneTrade = true → sender = origin)
    "Caller must be EOA Address"

end Views

/-! ### Starting a rebalance -/

section Module
variable (adapters : Address → ExchangeAdapter)
  (exchange : Address → Nat → List UInt8 → IndexWorld → Result IndexWorld)
  (module weth : Address) (w : IndexWorld)

def getAggregateComponentsAndUnits (newComponents : List Address)
    (newComponentsTargetUnits oldComponentsTargetUnits : List Nat) :
    Result (List Address × List Nat) := do
  let currentComponents := w.setToken.components
  require (newComponents.length = newComponentsTargetUnits.length) "Array length mismatch"
  require (currentComponents.length = oldComponentsTargetUnits.length)
    "Old Components targets missing"
  let aggregateComponents := currentComponents ++ newComponents
  let duplicate ← AddressArrayUtils.hasDuplicate aggregateComponents
  require (duplicate = false) "Cannot duplicate components"
  pure (aggregateComponents, oldComponentsTargetUnits ++ newComponentsTargetUnits)

def startRebalance (sender : Address) (newComponents : List Address)
    (newComponentsTargetUnits oldComponentsTargetUnits : List Nat) (positionMultiplier : Nat) :
    Result IndexWorld := do
  validateOnlyManagerAndValidSet w.setToken module sender
  let (aggregateComponents, aggregateTargetUnits) ← getAggregateComponentsAndUnits w newComponents
    newComponentsTargetUnits oldComponentsTargetUnits
  let w ← runs (fun w (component, targetUnit) => do
      require (Position.hasExternalPosition w.setToken component = false)
        "External positions not allowed"
      pure (withExecution w component { execution w component with targetUnit := targetUnit }))
    w (aggregateComponents.zip aggregateTargetUnits)
  pure (withRebalance w { rebalance w with
    rebalanceComponents := aggregateComponents
    positionMultiplier := positionMultiplier })

/-! ### Trades -/

def validateTradeParameters (component : Address) : Result Unit := do
  require (component ≠ weth) "Can not explicitly trade WETH"
  require (AddressArrayUtils.contains (rebalance w).rebalanceComponents component = true)
    "Component not part of rebalance"
  let info := execution w component
  let ready ← SafeMath.add info.lastTradeTimestamp info.coolOffPeriod
  require (ready ≤ w.rest.timestamp) "Component cool off in progress"
  require (Position.hasExternalPosition w.setToken component = false)
    "External positions not allowed"

/-- What is bought is enough to have the target left after the protocol's fee. -/
def calculateTradeSizeAndDirection (component : Address) (totalSupply : Nat) :
    Result (Bool × Nat) := do
  let protocolFee := w.setToken.controller.fees module protocolFeeIndex
  let componentMaxSize := (execution w component).maxSize
  let amounts ← getUnitsAndNotionalAmounts w component totalSupply
  require (amounts.currentUnit ≠ amounts.targetUnit) "Target already met"
  if amounts.targetNotional < amounts.currentNotional then
    let excess ← SafeMath.sub amounts.currentNotional amounts.targetNotional
    pure (true, min componentMaxSize excess)
  else
    let lacking ← SafeMath.sub amounts.targetNotional amounts.currentNotional
    let afterFee ← SafeMath.sub preciseUnit protocolFee
    let gross ← preciseDiv lacking afterFee
    pure (false, min componentMaxSize gross)

def getDefaultTradeInfo (component : Address) (calculateTradeDirection : Bool) :
    Result TradeInfo := do
  let setTotalSupply := w.setToken.totalSupply
  let exchangeAdapter ←
    getAndValidateAdapter w.setToken module (execution w component).exchangeName
  let (isSendTokenFixed, totalFixedQuantity) ← (if calculateTradeDirection then
      calculateTradeSizeAndDirection module w component setTotalSupply
    else pure (false, 0))
  let (sendToken, receiveToken) := if isSendTokenFixed then (component, weth) else (weth, component)
  pure {
    exchangeAdapter := exchangeAdapter
    sendToken := sendToken
    receiveToken := receiveToken
    isSendTokenFixed := isSendTokenFixed
    setTotalSupply := setTotalSupply
    totalFixedQuantity := totalFixedQuantity
    sendQuantity := 0
    floatingQuantityLimit := 0
    preTradeSendTokenBalance := w.balance sendToken
    preTradeReceiveTokenBalance := w.balance receiveToken
    exchangeData := (execution w component).exchangeData }

def createTradeInfo (component : Address) (ethQuantityLimit : Nat) : Result TradeInfo := do
  let tradeInfo ← getDefaultTradeInfo module weth w component true
  if tradeInfo.isSendTokenFixed then
    pure { tradeInfo with
      sendQuantity := tradeInfo.totalFixedQuantity
      floatingQuantityLimit := ethQuantityLimit }
  else
    pure { tradeInfo with
      sendQuantity := min ethQuantityLimit tradeInfo.preTradeSendTokenBalance
      floatingQuantityLimit := tradeInfo.totalFixedQuantity }

def createTradeRemainingInfo (component : Address) (minComponentReceived : Nat) :
    Result TradeInfo := do
  let tradeInfo ← getDefaultTradeInfo module weth w component false
  let amounts ← getUnitsAndNotionalAmounts w weth tradeInfo.setTotalSupply
  let sendQuantity ← SafeMath.sub amounts.currentNotional amounts.targetNotional
  pure { tradeInfo with
    sendQuantity := sendQuantity
    floatingQuantityLimit := minComponentReceived
    isSendTokenFixed := true }

def executeTrade (tradeInfo : TradeInfo) : Result IndexWorld := do
  let adapter := adapters tradeInfo.exchangeAdapter
  let w ← Invoke.invokeApprove w module tradeInfo.sendToken adapter.getSpender tradeInfo.sendQuantity
  let (targetExchange, callValue, methodData) ← adapter.getTradeCalldata tradeInfo.sendToken
    tradeInfo.receiveToken w.setToken.self tradeInfo.isSendTokenFixed tradeInfo.sendQuantity
    tradeInfo.floatingQuantityLimit tradeInfo.exchangeData
  w.invoke module (exchange targetExchange callValue methodData)

/-- Returns the fee. -/
def accrueProtocolFee (tradeInfo : TradeInfo) : Result (IndexWorld × Nat) := do
  let exchangedQuantity ←
    SafeMath.sub (w.balance tradeInfo.receiveToken) tradeInfo.preTradeReceiveTokenBalance
  let protocolFee ← getModuleFee w.setToken module protocolFeeIndex exchangedQuantity
  let w ← Invoke.strictInvokeTransfer w module tradeInfo.receiveToken
    w.setToken.controller.feeRecipient protocolFee
  pure (w, protocolFee)

/-- The unit of a token of the trade, from its balance before and now. -/
def updatePosition (tradeInfo : TradeInfo) (token : Address) (preTradeBalance : Nat) :
    Result IndexWorld :=
  w.callSetToken fun s => Position.calculateAndEditDefaultPosition s module token (w.balance token)
    tradeInfo.setTotalSupply preTradeBalance

/-- Returns the net amounts sent and received. -/
def updatePositionStateAndTimestamp (tradeInfo : TradeInfo) (component : Address) :
    Result (IndexWorld × Nat × Nat) := do
  let w ← updatePosition module w tradeInfo tradeInfo.sendToken tradeInfo.preTradeSendTokenBalance
  let w ← updatePosition module w tradeInfo tradeInfo.receiveToken
    tradeInfo.preTradeReceiveTokenBalance
  let netSendAmount ←
    SafeMath.sub tradeInfo.preTradeSendTokenBalance (w.balance tradeInfo.sendToken)
  let netReceiveAmount ←
    SafeMath.sub (w.balance tradeInfo.receiveToken) tradeInfo.preTradeReceiveTokenBalance
  let info := { execution w component with lastTradeTimestamp := w.rest.timestamp }
  pure (withExecution w component info, netSendAmount, netReceiveAmount)

def trade (sender origin component : Address) (ethQuantityLimit : Nat) : Result IndexWorld := do
  validateOnlyAllowedTrader w sender
  validateOnlyEOAIfUnrestricted w sender origin
  validateTradeParameters weth w component
  let tradeInfo ← createTradeInfo module weth w component ethQuantityLimit
  let w ← executeTrade adapters exchange module w tradeInfo
  let (w, _) ← accrueProtocolFee module w tradeInfo
  let (w, _) ← updatePositionStateAndTimestamp module w tradeInfo component
  pure w

def validateComponentPositionUnit (component : Address) : Result Unit := do
  let currentUnit ← getDefaultPositionRealUnit w component
  let targetUnit ← getNormalizedTargetUnit w component
  require (currentUnit ≤ targetUnit) "Can not exceed target unit"

/-- The target of WETH is taken here as it was set, for the multiplier of the rebalance. -/
def tradeRemainingWETH (sender origin component : Address) (minComponentReceived : Nat) :
    Result IndexWorld := do
  validateOnlyAllowedTrader w sender
  validateOnlyEOAIfUnrestricted w sender origin
  let none ← noTokensToSell weth w
  require (none = true) "Sell other set components first"
  let wethUnit ← getDefaultPositionRealUnit w weth
  require ((execution w weth).targetUnit < wethUnit) "WETH is below target unit"
  validateTradeParameters weth w component
  let tradeInfo ← createTradeRemainingInfo module weth w component minComponentReceived
  let w ← executeTrade adapters exchange module w tradeInfo
  let (w, protocolFee) ← accrueProtocolFee module w tradeInfo
  let (w, _, netReceiveAmount) ← updatePositionStateAndTimestamp module w tradeInfo component
  let received ← SafeMath.add netReceiveAmount protocolFee
  require (received < (execution w component).maxSize) "Trade amount > max trade size"
  validateComponentPositionUnit w component
  pure w

def raiseAssetTargets (sender : Address) : Result IndexWorld := do
  validateOnlyAllowedTrader w sender
  let met ← allTargetsMet weth w
  require (met = true) "Targets not met or ETH =~ 0"
  let wethUnit ← getDefaultPositionRealUnit w weth
  let wethTarget ← getNormalizedTargetUnit w weth
  require (wethTarget < wethUnit) "Targets not met or ETH =~ 0"
  let raised ← SafeMath.add preciseUnit (rebalance w).raiseTargetPercentage
  let positionMultiplier ← preciseDiv (rebalance w).positionMultiplier raised
  pure (withRebalance w { rebalance w with positionMultiplier := positionMultiplier })

/-! ### Settings -/

/-- One field of the execution parameters, for each component of an array. -/
def setEach {α : Type} (set : TradeExecutionParams → α → TradeExecutionParams)
    (pairs : List (Address × α)) : IndexWorld :=
  pairs.foldl (fun w (component, value) =>
    withExecution w component (set (execution w component) value)) w

def setTradeMaximums (sender : Address) (components : List Address) (tradeMaximums : List Nat) :
    Result IndexWorld := do
  validateOnlyManagerAndValidSet w.setToken module sender
  AddressArrayUtils.validatePairsWithArray components tradeMaximums
  pure (setEach w (fun p maxSize => { p with maxSize := maxSize }) (components.zip tradeMaximums))

/-- No exchange is set for WETH. -/
def setExchanges (sender : Address) (components : List Address) (exchangeNames : List String) :
    Result IndexWorld := do
  validateOnlyManagerAndValidSet w.setToken module sender
  AddressArrayUtils.validatePairsWithArray components exchangeNames
  runs (fun w (component, exchangeName) => do
      if component ≠ weth then
        require (w.setToken.controller.integrationAdapter module exchangeName ≠ 0)
          "Unrecognized exchange name"
        pure (withExecution w component
          { execution w component with exchangeName := exchangeName })
      else pure w)
    w (components.zip exchangeNames)

def setCoolOffPeriods (sender : Address) (components : List Address) (coolOffPeriods : List Nat) :
    Result IndexWorld := do
  validateOnlyManagerAndValidSet w.setToken module sender
  AddressArrayUtils.validatePairsWithArray components coolOffPeriods
  pure (setEach w (fun p coolOffPeriod => { p with coolOffPeriod := coolOffPeriod })
    (components.zip coolOffPeriods))

def setExchangeData (sender : Address) (components : List Address)
    (exchangeData : List (List UInt8)) : Result IndexWorld := do
  validateOnlyManagerAndValidSet w.setToken module sender
  AddressArrayUtils.validatePairsWithArray components exchangeData
  pure (setEach w (fun p data => { p with exchangeData := data }) (components.zip exchangeData))

def setRaiseTargetPercentage (sender : Address) (raiseTargetPercentage : Nat) :
    Result IndexWorld := do
  validateOnlyManagerAndValidSet w.setToken module sender
  require (0 < raiseTargetPercentage) "Target percentage must be > 0"
  pure (withRebalance w { rebalance w with raiseTargetPercentage := raiseTargetPercentage })

/-- One step of `setTraderStatus`, with `_updateTradersHistory`. -/
def updateTrader (info : TradePermissionInfo) (entry : Address × Bool) :
    Result TradePermissionInfo := do
  let tradersHistory ← Registry.updateHistory info.tradersHistory entry.1 entry.2
  pure { info with
    tradersHistory := tradersHistory
    tradeAllowList := Function.update info.tradeAllowList entry.1 entry.2 }

def setTraderStatus (sender : Address) (traders : List Address) (statuses : List Bool) :
    Result IndexWorld := do
  validateOnlyManagerAndValidSet w.setToken module sender
  AddressArrayUtils.validatePairsWithArray traders statuses
  let info ← runs updateTrader w.rest.permissionInfo (traders.zip statuses)
  pure (withPermission w info)

def setAnyoneTrade (sender : Address) (status : Bool) : Result IndexWorld := do
  validateOnlyManagerAndValidSet w.setToken module sender
  pure (withPermission w { w.rest.permissionInfo with anyoneTrade := status })

/-! ### Adding and removing the module -/

/-- The targets are the units that there are, so that nothing is to be traded. The module's
`initialize`. -/
def initializeSet (sender : Address) : Result IndexWorld := do
  validateOnlySetManager w.setToken sender
  validateOnlyValidAndPendingSet w.setToken module
  let positions ← w.setToken.getPositions
  let w ← runs (fun (w : IndexWorld) (position : SetToken.ListedPosition) => do
      require (position.positionState = 0) "External positions not allowed"
      let targetUnit ← SafeCast.toUint256 position.unit
      pure (withExecution w position.component
        { execution w position.component with targetUnit := targetUnit, lastTradeTimestamp := 0 }))
    w positions
  let positionMultiplier ← SafeCast.toUint256 w.setToken.positionMultiplier
  let w := withRebalance w { rebalance w with positionMultiplier := positionMultiplier }
  w.callSetToken (·.initializeModule module)

/-- What the SetToken calls when it removes the module. The execution parameters stay. -/
def removeModule : IndexWorld :=
  let info := w.rest.permissionInfo
  let tradeAllowList := info.tradersHistory.foldl (fun allowed trader =>
    Function.update allowed trader false) info.tradeAllowList
  withPermission (withRebalance w .empty) ⟨false, [], tradeAllowList⟩

/-- The manager removes this module from the SetToken. -/
def removeFromSet (sender : Address) : Result IndexWorld := do
  w.setToken.validateRemoveModule sender module
  let w := removeModule w
  w.callSetToken (·.finishRemoveModule module)

end Module

end GeneralIndexModule

end IndexProtocol
