import IndexProtocol.ModuleBase
import IndexProtocol.SetToken.Lock

/-! The AuctionRebalanceModuleV1: a SetToken is rebalanced by auctions of its components.

The manager sets a target unit for each component and a time. Bidders sell the
SetToken what it lacks and buy what it has too much of, for the quote asset, at
the price of an adapter. A rebalance may lock the SetToken; anybody may unlock it
when the time is over, or earlier if all targets are met. `module` is this
module's address, `adapters` are the price adapters, by address. No call
re-enters the module. -/
namespace IndexProtocol
open Evm PreciseUnitMath ModuleBase

namespace SetToken

/-- A position as the SetToken reports it; the state of a default position is 0, of an external one 1. -/
structure ListedPosition where
  component : Address
  module : Address
  unit : Int
  positionState : Nat
  data : List UInt8

/-- A default position is reported if its unit is positive. -/
def listDefault (s : SetToken) (component : Address) : Result (List ListedPosition) := do
  if 0 < s.defaultPositionVirtualUnit component then
    let unit ← s.getDefaultPositionRealUnit component
    pure [⟨component, 0, unit, 0, []⟩]
  else pure []

def listExternal (s : SetToken) (component module : Address) : Result ListedPosition := do
  let unit ← s.getExternalPositionRealUnit component module
  pure ⟨component, module, unit, 1, s.externalPositionData component module⟩

def getPositions (s : SetToken) : Result (List ListedPosition) := do
  let positions ← s.components.mapM fun component => do
    let own ← s.listDefault component
    let others ← (s.externalPositionModules component).mapM (s.listExternal component)
    pure (own ++ others)
  pure positions.flatten

end SetToken

namespace PreciseUnitMath

/-- Both bounds are checked sums, and the lower one is computed where the upper one holds. -/
def approximatelyEquals (a b range : Nat) : Result Bool := do
  let upper ← SafeMath.add b range
  if a ≤ upper then
    let lower ← SafeMath.sub b range
    pure (decide (lower ≤ a))
  else pure false

end PreciseUnitMath

structure AuctionExecutionParams where
  targetUnit : Nat
  priceAdapterName : String
  priceAdapterConfigData : List UInt8

structure BidPermissionInfo where
  isAnyoneAllowedToBid : Bool
  biddersHistory : List Address
  bidAllowList : Address → Bool

structure RebalanceInfo where
  quoteAsset : Address
  rebalanceStartTime : Nat
  rebalanceDuration : Nat
  /-- The multiplier of the SetToken for which the targets are meant. -/
  positionMultiplier : Nat
  raiseTargetPercentage : Nat
  rebalanceComponents : List Address

structure BidInfo where
  sendToken : Address
  receiveToken : Address
  priceAdapter : Address
  priceAdapterConfigData : List UInt8
  isSellAuction : Bool
  auctionQuantity : Nat
  componentPrice : Nat
  quantitySentBySet : Nat
  quantityReceivedBySet : Nat
  preBidTokenSentBalance : Nat
  preBidTokenReceivedBalance : Nat
  setTotalSupply : Nat

structure PriceAdapter where
  getPrice : (setToken component : Address) → (componentQuantity timeElapsed duration : Nat) →
    (priceAdapterConfigData : List UInt8) → Result Nat
  isPriceAdapterConfigDataValid : List UInt8 → Result Bool

/-- The state of the module for the SetToken, with the time. -/
structure AuctionState where
  timestamp : Nat
  executionInfo : Address → AuctionExecutionParams
  permissionInfo : BidPermissionInfo
  rebalanceInfo : RebalanceInfo

def AuctionExecutionParams.empty : AuctionExecutionParams := ⟨0, "", []⟩

def RebalanceInfo.empty : RebalanceInfo := ⟨0, 0, 0, 0, 0, []⟩

/-- The module at a time, before the SetToken uses it. -/
def AuctionState.empty (timestamp : Nat) : AuctionState :=
  ⟨timestamp, fun _ => .empty, ⟨false, [], fun _ => false⟩, .empty⟩

abbrev AuctionWorld := World AuctionState

namespace AuctionRebalanceModuleV1

def protocolFeeIndex : Nat := 0

/-! ### The state, by field -/

def rebalance (w : AuctionWorld) : RebalanceInfo := w.rest.rebalanceInfo

def withRebalance (w : AuctionWorld) (info : RebalanceInfo) : AuctionWorld :=
  { w with rest := { w.rest with rebalanceInfo := info } }

def withPermission (w : AuctionWorld) (info : BidPermissionInfo) : AuctionWorld :=
  { w with rest := { w.rest with permissionInfo := info } }

def withExecution (w : AuctionWorld) (component : Address) (p : AuctionExecutionParams) :
    AuctionWorld :=
  { w with rest := { w.rest with executionInfo := Function.update w.rest.executionInfo component p } }

/-! ### Targets -/

section Views
variable (w : AuctionWorld)

def getDefaultPositionRealUnit (component : Address) : Result Nat := do
  let unit ← w.setToken.getDefaultPositionRealUnit component
  SafeCast.toUint256 unit

/-- The target unit, for the multiplier that the SetToken has now. -/
def getNormalizedTargetUnit (component : Address) : Result Nat := do
  let positionMultiplier ← SafeCast.toUint256 w.setToken.positionMultiplier
  let product ← SafeMath.mul (w.rest.executionInfo component).targetUnit positionMultiplier
  SafeMath.div product (rebalance w).positionMultiplier

/-- The quote asset has no target to meet here. -/
def targetUnmet (component : Address) : Result Bool := do
  if component = (rebalance w).quoteAsset then pure false
  else
    let normalizedTargetUnit ← getNormalizedTargetUnit w component
    let currentUnit ← getDefaultPositionRealUnit w component
    if 0 < normalizedTargetUnit then
      let close ← approximatelyEquals normalizedTargetUnit currentUnit 1
      pure (!close)
    else pure (decide (normalizedTargetUnit ≠ currentUnit))

/-- The loop of `_allTargetsMet`, which returns at the first target that is not met. -/
def targetsMet : List Address → Result Bool
  | [] => pure true
  | component :: rest => do
    let unmet ← targetUnmet w component
    if unmet then pure false else targetsMet rest

def allTargetsMet : Result Bool := targetsMet w (rebalance w).rebalanceComponents

/-- Whether it is at its target is computed also where it is above. -/
def isQuoteAssetExcessOrAtTarget : Result Bool := do
  let quoteAsset := (rebalance w).quoteAsset
  let currentUnit ← getDefaultPositionRealUnit w quoteAsset
  let targetUnit ← getNormalizedTargetUnit w quoteAsset
  let isExcess := decide (targetUnit < currentUnit)
  let isAtTarget ← approximatelyEquals currentUnit targetUnit 1
  pure (isExcess || isAtTarget)

def canUnlockEarly : Result Bool := do
  let targetsMet ← allTargetsMet w
  if targetsMet then
    let atTarget ← isQuoteAssetExcessOrAtTarget w
    pure (atTarget && decide ((rebalance w).raiseTargetPercentage = 0))
  else pure false

def canRaiseAssetTargets : Result Bool := do
  let quoteAsset := (rebalance w).quoteAsset
  let currentUnit ← getDefaultPositionRealUnit w quoteAsset
  let targetUnit ← getNormalizedTargetUnit w quoteAsset
  let targetsMet ← allTargetsMet w
  pure (targetsMet && decide (targetUnit < currentUnit))

def isRebalanceDurationElapsed : Result Bool := do
  let expiry ← SafeMath.add (rebalance w).rebalanceStartTime (rebalance w).rebalanceDuration
  pure (decide (expiry ≤ w.rest.timestamp))

def isAllowedBidder (bidder : Address) : Bool :=
  w.rest.permissionInfo.isAnyoneAllowedToBid || w.rest.permissionInfo.bidAllowList bidder

def validateOnlyAllowedBidder (bidder : Address) : Result Unit :=
  require (isAllowedBidder w bidder = true) "Address not permitted to bid"

end Views

/-! ### Starting a rebalance -/

section Module
variable (adapters : Address → PriceAdapter) (module : Address) (w : AuctionWorld)

def validateAuctionExecutionPriceParams (auctionParams : AuctionExecutionParams) :
    Result Unit := do
  let adapter ← getAndValidateAdapter w.setToken module auctionParams.priceAdapterName
  let valid ←
    (adapters adapter).isPriceAdapterConfigDataValid auctionParams.priceAdapterConfigData
  require (valid = true) "Price adapter config data invalid"

def concatAndValidateAuctionParams (oldAuctionParams newAuctionParams : List AuctionExecutionParams) :
    Result (List AuctionExecutionParams) := do
  oldAuctionParams.forM (validateAuctionExecutionPriceParams adapters module w)
  newAuctionParams.forM fun auctionParams => do
    require (0 < auctionParams.targetUnit) "New component target unit must be greater than 0"
    validateAuctionExecutionPriceParams adapters module w auctionParams
  pure (oldAuctionParams ++ newAuctionParams)

def aggregateComponentsAndAuctionParams (newComponents : List Address)
    (newComponentsAuctionParams oldComponentsAuctionParams : List AuctionExecutionParams) :
    Result (List Address × List AuctionExecutionParams) := do
  let currentComponents := w.setToken.components
  require (newComponents.length = newComponentsAuctionParams.length)
    "New components and params length mismatch"
  require (currentComponents.length = oldComponentsAuctionParams.length)
    "Old components and params length mismatch"
  let aggregateComponents := currentComponents ++ newComponents
  let duplicate ← AddressArrayUtils.hasDuplicate aggregateComponents
  require (duplicate = false) "Cannot have duplicate components"
  let aggregateAuctionParams ← concatAndValidateAuctionParams adapters module w
    oldComponentsAuctionParams newComponentsAuctionParams
  pure (aggregateComponents, aggregateAuctionParams)

def setExecutionInfo (pairs : List (Address × AuctionExecutionParams)) : Result AuctionWorld :=
  runs (fun w (component, auctionParams) => do
      require (Position.hasExternalPosition w.setToken component = false)
        "External positions not allowed"
      pure (withExecution w component auctionParams))
    w pairs

def startRebalance (sender quoteAsset : Address) (newComponents : List Address)
    (newComponentsAuctionParams oldComponentsAuctionParams : List AuctionExecutionParams)
    (shouldLockSetToken : Bool) (rebalanceDuration initialPositionMultiplier : Nat) :
    Result AuctionWorld := do
  validateOnlyManagerAndValidSet w.setToken module sender
  let w ← (if shouldLockSetToken = true ∧ w.setToken.locker ≠ module then
      w.callSetToken (·.lock module)
    else pure w)
  let (allComponents, allAuctionParams) ← aggregateComponentsAndAuctionParams adapters module w
    newComponents newComponentsAuctionParams oldComponentsAuctionParams
  let w ← setExecutionInfo w (allComponents.zip allAuctionParams)
  pure (withRebalance w { rebalance w with
    quoteAsset := quoteAsset
    rebalanceStartTime := w.rest.timestamp
    rebalanceDuration := rebalanceDuration
    positionMultiplier := initialPositionMultiplier
    rebalanceComponents := allComponents })

/-! ### Bids -/

def validateBidTargets (component quoteAsset : Address) (componentAmount : Nat) : Result Unit := do
  require (component ≠ (rebalance w).quoteAsset) "Cannot bid explicitly on Quote Asset"
  require (quoteAsset = (rebalance w).quoteAsset) "Quote asset mismatch"
  require (AddressArrayUtils.contains (rebalance w).rebalanceComponents component = true)
    "Component not part of rebalance"
  require (Position.hasExternalPosition w.setToken component = false)
    "External positions not allowed"
  let elapsed ← isRebalanceDurationElapsed w
  require (elapsed = false) "Rebalance must be in progress"
  require (0 < componentAmount) "Component amount must be > 0"

structure UnitsAndNotionalAmounts where
  currentUnit : Nat
  targetUnit : Nat
  currentNotional : Nat
  targetNotional : Nat

def getUnitsAndNotionalAmounts (component : Address) (totalSupply : Nat) :
    Result UnitsAndNotionalAmounts := do
  let currentUnit ← getDefaultPositionRealUnit w component
  let targetUnit ← getNormalizedTargetUnit w component
  let currentNotional ← Position.getDefaultTotalNotional totalSupply currentUnit
  let targetNotional ← preciseMulCeil totalSupply targetUnit
  pure ⟨currentUnit, targetUnit, currentNotional, targetNotional⟩

/-- What is bought is enough to have the target left after the protocol's fee. -/
def calculateAuctionSizeAndDirection (component : Address) (totalSupply : Nat) :
    Result (Bool × Nat) := do
  let protocolFee := w.setToken.controller.fees module protocolFeeIndex
  let amounts ← getUnitsAndNotionalAmounts w component totalSupply
  require (amounts.currentUnit ≠ amounts.targetUnit) "Target already met"
  if amounts.targetNotional < amounts.currentNotional then
    let maxComponentQty ← SafeMath.sub amounts.currentNotional amounts.targetNotional
    pure (true, maxComponentQty)
  else
    let lacking ← SafeMath.sub amounts.targetNotional amounts.currentNotional
    let afterFee ← SafeMath.sub preciseUnit protocolFee
    let maxComponentQty ← preciseDiv lacking afterFee
    pure (false, maxComponentQty)

def getSendAndReceiveTokens (isSellAuction : Bool) (component : Address) : Address × Address :=
  if isSellAuction then (component, (rebalance w).quoteAsset)
  else ((rebalance w).quoteAsset, component)

def calculateQuoteAssetQuantity (isSellAuction : Bool) (componentQuantity componentPrice : Nat) :
    Result Nat :=
  if isSellAuction then preciseMulCeil componentQuantity componentPrice
  else preciseMul componentQuantity componentPrice

def validateQuoteAssetQuantity (isSellAuction : Bool)
    (quoteAssetQuantity quoteQuantityLimit preBidTokenSentBalance : Nat) : Result Unit := do
  if isSellAuction then
    require (quoteAssetQuantity ≤ quoteQuantityLimit) "Quote asset quantity exceeds limit"
  else
    require (quoteQuantityLimit ≤ quoteAssetQuantity) "Quote asset quantity below limit"
    require (quoteAssetQuantity ≤ preBidTokenSentBalance) "Insufficient quote asset balance"

def calculateQuantitiesForBid (isSellAuction : Bool) (componentQuantity quoteAssetQuantity : Nat) :
    Nat × Nat :=
  if isSellAuction then (componentQuantity, quoteAssetQuantity)
  else (quoteAssetQuantity, componentQuantity)

/-- The largest `uint256` asks for all of the auction. -/
def settledQuantity (componentQuantity auctionQuantity : Nat) : Result Nat := do
  if componentQuantity = uintBound - 1 then pure auctionQuantity
  else
    require (componentQuantity ≤ auctionQuantity) "Bid size exceeds auction quantity"
    pure componentQuantity

def createBidInfo (component : Address) (componentQuantity quoteQuantityLimit : Nat)
    (isSellAuction : Bool) : Result BidInfo := do
  let setTotalSupply := w.setToken.totalSupply
  let auctionParams := w.rest.executionInfo component
  let priceAdapter ← getAndValidateAdapter w.setToken module auctionParams.priceAdapterName
  let (isSell, auctionQuantity) ←
    calculateAuctionSizeAndDirection module w component setTotalSupply
  require (isSell = isSellAuction) "Auction direction mismatch"
  let componentQuantity ← settledQuantity componentQuantity auctionQuantity
  let (sendToken, receiveToken) := getSendAndReceiveTokens w isSell component
  let timeElapsed ← SafeMath.sub w.rest.timestamp (rebalance w).rebalanceStartTime
  let componentPrice ← (adapters priceAdapter).getPrice w.setToken.self component componentQuantity
    timeElapsed (rebalance w).rebalanceDuration auctionParams.priceAdapterConfigData
  let quoteAssetQuantity ← calculateQuoteAssetQuantity isSell componentQuantity componentPrice
  let preBidTokenSentBalance := w.balance sendToken
  let preBidTokenReceivedBalance := w.balance receiveToken
  validateQuoteAssetQuantity isSell quoteAssetQuantity quoteQuantityLimit preBidTokenSentBalance
  let (quantitySentBySet, quantityReceivedBySet) :=
    calculateQuantitiesForBid isSell componentQuantity quoteAssetQuantity
  pure ⟨sendToken, receiveToken, priceAdapter, auctionParams.priceAdapterConfigData, isSell,
    auctionQuantity, componentPrice, quantitySentBySet, quantityReceivedBySet,
    preBidTokenSentBalance, preBidTokenReceivedBalance, setTotalSupply⟩

def executeBid (sender : Address) (bidInfo : BidInfo) : Result AuctionWorld := do
  let w ← ExplicitERC20.transferFrom w module bidInfo.receiveToken sender w.setToken.self
    bidInfo.quantityReceivedBySet
  Invoke.strictInvokeTransfer w module bidInfo.sendToken sender bidInfo.quantitySentBySet

/-- Returns the fee. -/
def accrueProtocolFee (bidInfo : BidInfo) : Result (AuctionWorld × Nat) := do
  let exchangedQuantity ←
    SafeMath.sub (w.balance bidInfo.receiveToken) bidInfo.preBidTokenReceivedBalance
  let protocolFee ← getModuleFee w.setToken module protocolFeeIndex exchangedQuantity
  let w ← Invoke.strictInvokeTransfer w module bidInfo.receiveToken
    w.setToken.controller.feeRecipient protocolFee
  pure (w, protocolFee)

/-- The unit of a token of the bid, from its balance before and now. -/
def updatePosition (bidInfo : BidInfo) (token : Address) (preBidBalance : Nat) :
    Result AuctionWorld :=
  w.callSetToken fun s => Position.calculateAndEditDefaultPosition s module token (w.balance token)
    bidInfo.setTotalSupply preBidBalance

/-- Returns the net amounts sent and received. -/
def updatePositionState (bidInfo : BidInfo) : Result (AuctionWorld × Nat × Nat) := do
  let w ← updatePosition module w bidInfo bidInfo.sendToken bidInfo.preBidTokenSentBalance
  let w ← updatePosition module w bidInfo bidInfo.receiveToken bidInfo.preBidTokenReceivedBalance
  let netSendAmount ←
    SafeMath.sub bidInfo.preBidTokenSentBalance (w.balance bidInfo.sendToken)
  let netReceiveAmount ←
    SafeMath.sub (w.balance bidInfo.receiveToken) bidInfo.preBidTokenReceivedBalance
  pure (w, netSendAmount, netReceiveAmount)

def bid (sender component quoteAsset : Address) (componentAmount quoteAssetLimit : Nat)
    (isSellAuction : Bool) : Result AuctionWorld := do
  validateOnlyAllowedBidder w sender
  validateBidTargets w component quoteAsset componentAmount
  let bidInfo ← createBidInfo adapters module w component componentAmount quoteAssetLimit
    isSellAuction
  let w ← executeBid module w sender bidInfo
  let (w, _) ← accrueProtocolFee module w bidInfo
  let (w, _) ← updatePositionState module w bidInfo
  pure w

/-! ### During and after a rebalance -/

def raiseAssetTargets (sender : Address) : Result AuctionWorld := do
  validateOnlyAllowedBidder w sender
  let elapsed ← isRebalanceDurationElapsed w
  require (elapsed = false) "Rebalance must be in progress"
  let canRaise ← canRaiseAssetTargets w
  require (canRaise = true) "Targets not met or quote asset =~ 0"
  let raised ← SafeMath.add preciseUnit (rebalance w).raiseTargetPercentage
  let newPositionMultiplier ← preciseDiv (rebalance w).positionMultiplier raised
  pure (withRebalance w { rebalance w with positionMultiplier := newPositionMultiplier })

/-- Callable by anybody. The conditions for an early end are evaluated also when the time is over. -/
def unlock : Result AuctionWorld := do
  let elapsed ← isRebalanceDurationElapsed w
  let early ← canUnlockEarly w
  require (elapsed = true ∨ early = true)
    "Cannot unlock early unless all targets are met and raiseTargetPercentage is zero"
  let info := rebalance w
  let info := if early then { info with rebalanceDuration := 0 } else info
  let w := withRebalance w { info with raiseTargetPercentage := 0 }
  w.callSetToken (·.unlock module)

def setRaiseTargetPercentage (sender : Address) (raiseTargetPercentage : Nat) :
    Result AuctionWorld := do
  validateOnlyManagerAndValidSet w.setToken module sender
  pure (withRebalance w { rebalance w with raiseTargetPercentage := raiseTargetPercentage })

def updateBiddersHistory (info : BidPermissionInfo) (bidder : Address) (status : Bool) :
    Result BidPermissionInfo := do
  let known := AddressArrayUtils.contains info.biddersHistory bidder
  if status = true ∧ known = false then
    pure { info with biddersHistory := info.biddersHistory ++ [bidder] }
  else if status = false ∧ known = true then
    let biddersHistory ← AddressArrayUtils.removeStorage info.biddersHistory bidder
    pure { info with biddersHistory := biddersHistory }
  else pure info

def setBidderStatus (sender : Address) (bidders : List Address) (statuses : List Bool) :
    Result AuctionWorld := do
  validateOnlyManagerAndValidSet w.setToken module sender
  AddressArrayUtils.validatePairsWithArray bidders statuses
  let info ← runs (fun info (bidder, status) => do
      let info ← updateBiddersHistory info bidder status
      pure { info with bidAllowList := Function.update info.bidAllowList bidder status })
    w.rest.permissionInfo (bidders.zip statuses)
  pure (withPermission w info)

def setAnyoneBid (sender : Address) (status : Bool) : Result AuctionWorld := do
  validateOnlyManagerAndValidSet w.setToken module sender
  pure (withPermission w { w.rest.permissionInfo with isAnyoneAllowedToBid := status })

/-! ### Adding and removing the module -/

/-- The targets are the units that there are, so that nothing is for auction. The module's
`initialize`. -/
def initializeSet (sender : Address) : Result AuctionWorld := do
  validateOnlySetManager w.setToken sender
  validateOnlyValidAndPendingSet w.setToken module
  let positions ← w.setToken.getPositions
  let w ← runs (fun (w : AuctionWorld) (position : SetToken.ListedPosition) => do
      require (position.positionState = 0) "External positions not allowed"
      let targetUnit ← SafeCast.toUint256 position.unit
      pure (withExecution w position.component
        { w.rest.executionInfo position.component with targetUnit := targetUnit }))
    w positions
  let positionMultiplier ← SafeCast.toUint256 w.setToken.positionMultiplier
  let w := withRebalance w { rebalance w with positionMultiplier := positionMultiplier }
  w.callSetToken (·.initializeModule module)

/-- What the SetToken calls when it removes the module. The targets stay. -/
def removeModule : AuctionWorld :=
  let info := w.rest.permissionInfo
  let bidAllowList := info.biddersHistory.foldl (fun allowed bidder =>
    Function.update allowed bidder false) info.bidAllowList
  withPermission (withRebalance w .empty) ⟨false, [], bidAllowList⟩

/-- The manager removes this module from the SetToken. -/
def removeFromSet (sender : Address) : Result AuctionWorld := do
  w.setToken.validateRemoveModule sender module
  let w := removeModule w
  w.callSetToken (·.finishRemoveModule module)

end Module

end AuctionRebalanceModuleV1

end IndexProtocol
