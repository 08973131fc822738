import IndexProtocol.Issuance.Debt
import IndexProtocol.Morpho.Blue

/-! The MorphoLeverageModule: a leveraged position of the SetToken on one Morpho market.

The SetToken supplies collateral to the market and borrows from it. What it owns
and owes there is written to two external positions, of the collateral token and
of the loan token, when the module is synced. `module` is this module's address,
`morpho` is Morpho, `exchanges` are the exchange adapters, by address. No call
re-enters the module. -/
namespace IndexProtocol
open Evm PreciseUnitMath ModuleBase Morpho

/-- The state of the module for the SetToken, with Morpho's own and the time. -/
structure LeverageState (μ : Type) where
  morpho : μ
  timestamp : Nat
  marketParams : MarketParams
  allowedSetToken : Bool
  anySetAllowed : Bool

abbrev LeverageWorld (μ : Type) := IssuanceWorld (LeverageState μ)

/-- An exchange trades tokens of the SetToken, which has approved the spender. -/
structure ExchangeAdapter where
  spender : Address
  trade : (sendToken receiveToken destination : Address) →
    (sendQuantity minReceiveQuantity : Nat) → (data : List UInt8) → Tokens → Result Tokens

structure ActionInfo where
  exchangeAdapter : Address
  setTotalSupply : Nat
  notionalSendQuantity : Nat
  minNotionalReceiveQuantity : Nat
  collateralAsset : Address
  borrowAsset : Address
  preTradeReceiveTokenBalance : Nat

namespace MorphoLeverageModule
variable {μ : Type}

def defaultIssuanceModuleName : String := "DefaultIssuanceModule"

def protocolTradeFeeIndex : Nat := 0

/-! ### The state, by field -/

def params (w : LeverageWorld μ) : MarketParams := w.rest.others.marketParams

/-- A token of the leveraged position. -/
def IsMarketToken (w : LeverageWorld μ) (token : Address) : Prop :=
  token = (params w).collateralToken ∨ token = (params w).loanToken

def withOthers (w : LeverageWorld μ) (others : LeverageState μ) : LeverageWorld μ :=
  { w with rest := { w.rest with others := others } }

variable (morpho : MorphoBlue μ) (module : Address)

/-! ### Calls of Morpho -/

/-- The SetToken calls Morpho for its own position. -/
def invokeMorpho (w : LeverageWorld μ) (marketParams : MarketParams)
    (call : (onBehalf : Address) → Call μ) : Result (LeverageWorld μ) :=
  w.invoke module fun w => do
    let self := w.setToken.self
    let others := w.rest.others
    let (tokens, state) ← call self others.timestamp self marketParams (w.tokens, others.morpho)
    pure (withOthers { w with tokens := tokens } { others with morpho := state })

def deposit (w : LeverageWorld μ) (marketParams : MarketParams) (notionalQuantity : Nat) :
    Result (LeverageWorld μ) := do
  let w ← Invoke.invokeApprove w module marketParams.collateralToken morpho.self notionalQuantity
  invokeMorpho module w marketParams (morpho.supplyCollateral notionalQuantity ·)

def withdraw (w : LeverageWorld μ) (marketParams : MarketParams) (notionalQuantity : Nat) :
    Result (LeverageWorld μ) :=
  invokeMorpho module w marketParams fun self => morpho.withdrawCollateral notionalQuantity self self

/-- Only one of assets and shares is set, as Morpho wants it. -/
def repayBorrow (w : LeverageWorld μ) (marketParams : MarketParams)
    (notionalQuantity shares : Nat) : Result (LeverageWorld μ) := do
  let w ← Invoke.invokeApprove w module marketParams.loanToken morpho.self notionalQuantity
  if 0 < shares then invokeMorpho module w marketParams (morpho.repay 0 shares ·)
  else invokeMorpho module w marketParams (morpho.repay notionalQuantity 0 ·)

def borrow (w : LeverageWorld μ) (marketParams : MarketParams) (notionalQuantity : Nat) :
    Result (LeverageWorld μ) :=
  invokeMorpho module w marketParams fun self => morpho.borrow notionalQuantity 0 self self

/-! ### Sync -/

/-- Collateral, debt in assets and debt in shares. -/
def getCollateralAndBorrowBalances (w : LeverageWorld μ) (marketParams : MarketParams) :
    Result (Nat × Nat × Nat) := do
  let state := w.rest.others.morpho
  let position := morpho.position state (morpho.id marketParams) w.setToken.self
  let market ← morpho.expectedMarketBalances state w.rest.others.timestamp marketParams
  let borrowBalance ←
    SharesMath.toAssetsUp position.borrowShares market.totalBorrowAssets market.totalBorrowShares
  pure (position.collateral, borrowBalance, position.borrowShares)

/-- The balances for one share, collateral rounded down and debt rounded up. -/
def positionUnits (setTotalSupply collateralBalance borrowBalance : Nat) : Result (Int × Int) := do
  let collateralUnit ← preciseDiv collateralBalance setTotalSupply
  let collateralPosition ← SafeCast.toInt256 collateralUnit
  let borrowUnit ← preciseDivCeil borrowBalance setTotalSupply
  let borrowUnit ← SafeCast.toInt256 borrowUnit
  let borrowPosition ← SignedSafeMath.mul borrowUnit (-1)
  pure (collateralPosition, borrowPosition)

def getCollateralAndBorrowPositions (w : LeverageWorld μ) (marketParams : MarketParams)
    (setTotalSupply : Nat) : Result (Int × Int) := do
  if setTotalSupply = 0 then pure (0, 0)
  else
    let (collateralBalance, borrowBalance, _) ←
      getCollateralAndBorrowBalances morpho w marketParams
    positionUnits setTotalSupply collateralBalance borrowBalance

def updateExternalPosition (s : SetToken) (underlyingAsset : Address) (newPositionUnit : Int) :
    Result SetToken :=
  Position.editExternalPosition s module underlyingAsset module newPositionUnit []

/-- Writes a position whose unit changed. -/
def syncPosition (s : SetToken) (underlyingAsset : Address) (newPositionUnit : Int) :
    Result SetToken := do
  let previousPositionUnit ← s.getExternalPositionRealUnit underlyingAsset module
  if previousPositionUnit ≠ newPositionUnit then
    updateExternalPosition module s underlyingAsset newPositionUnit
  else pure s

/-- The module's `_sync`. -/
def syncPositions (w : LeverageWorld μ) : Result (LeverageWorld μ) := do
  require ((params w).collateralToken ≠ 0) "Collateral not set"
  let (newCollateralPositionUnit, newBorrowPositionUnit) ←
    getCollateralAndBorrowPositions morpho w (params w) w.setToken.totalSupply
  let s ← syncPosition module w.setToken (params w).collateralToken newCollateralPositionUnit
  let s ← syncPosition module s (params w).loanToken newBorrowPositionUnit
  pure { w with setToken := s }

/-- Callable by anybody. -/
def sync (w : LeverageWorld μ) : Result (LeverageWorld μ) := do
  validateOnlyValidAndInitializedSet w.setToken module
  syncPositions morpho module w

/-! ### Trades -/

variable (exchanges : Address → ExchangeAdapter)

def validateCommon (w : LeverageWorld μ) (actionInfo : ActionInfo) : Result Unit := do
  require ((params w).collateralToken ≠ 0) "Collateral not enabled"
  require ((params w).loanToken ≠ 0) "Borrow not enabled"
  require (actionInfo.collateralAsset ≠ actionInfo.borrowAsset)
    "Collateral and borrow asset must be different"
  require (0 < actionInfo.notionalSendQuantity) "Quantity is 0"

def createAndValidateActionInfoNotional (w : LeverageWorld μ) (sendToken receiveToken : Address)
    (notionalSendQuantity minNotionalReceiveQuantity : Nat) (tradeAdapterName : String)
    (isLever : Bool) (setTotalSupply : Nat) : Result ActionInfo := do
  let exchangeAdapter ← getAndValidateAdapter w.setToken module tradeAdapterName
  let actionInfo : ActionInfo :=
    { exchangeAdapter := exchangeAdapter
      setTotalSupply := setTotalSupply
      notionalSendQuantity := notionalSendQuantity
      minNotionalReceiveQuantity := minNotionalReceiveQuantity
      collateralAsset := if isLever then receiveToken else sendToken
      borrowAsset := if isLever then sendToken else receiveToken
      preTradeReceiveTokenBalance := w.balance receiveToken }
  validateCommon w actionInfo
  pure actionInfo

def createAndValidateActionInfo (w : LeverageWorld μ) (sendToken receiveToken : Address)
    (sendQuantityUnits minReceiveQuantityUnits : Nat) (tradeAdapterName : String)
    (isLever : Bool) : Result ActionInfo := do
  let totalSupply := w.setToken.totalSupply
  let notionalSendQuantity ← preciseMul sendQuantityUnits totalSupply
  let minNotionalReceiveQuantity ← preciseMul minReceiveQuantityUnits totalSupply
  createAndValidateActionInfoNotional module w sendToken receiveToken notionalSendQuantity
    minNotionalReceiveQuantity tradeAdapterName isLever totalSupply

/-- Returns the quantity received. -/
def executeTrade (w : LeverageWorld μ) (actionInfo : ActionInfo) (sendToken receiveToken : Address)
    (data : List UInt8) : Result (LeverageWorld μ × Nat) := do
  let exchange := exchanges actionInfo.exchangeAdapter
  let w ← Invoke.invokeApprove w module sendToken exchange.spender actionInfo.notionalSendQuantity
  let w ← w.invoke module fun w => do
    let tokens ← exchange.trade sendToken receiveToken w.setToken.self
      actionInfo.notionalSendQuantity actionInfo.minNotionalReceiveQuantity data w.tokens
    pure { w with tokens := tokens }
  let receiveTokenQuantity ←
    SafeMath.sub (w.balance receiveToken) actionInfo.preTradeReceiveTokenBalance
  require (actionInfo.minNotionalReceiveQuantity ≤ receiveTokenQuantity) "Slippage too high"
  pure (w, receiveTokenQuantity)

/-- Pays the protocol's fee on what was received; returns the fee. -/
def accrueProtocolFee (w : LeverageWorld μ) (receiveToken : Address) (exchangedQuantity : Nat) :
    Result (LeverageWorld μ × Nat) := do
  let protocolFeeTotal ← getModuleFee w.setToken module protocolTradeFeeIndex exchangedQuantity
  let w ← Invoke.strictInvokeTransfer w module receiveToken w.setToken.controller.feeRecipient
    protocolFeeTotal
  pure (w, protocolFeeTotal)

/-- Loan tokens received beyond the debt become a default position. -/
def updateRepayDefaultPosition (w : LeverageWorld μ) (actionInfo : ActionInfo)
    (repayAsset : Address) : Result (LeverageWorld μ) := do
  let repayAssetBalance := w.balance repayAsset
  if repayAssetBalance ≠ actionInfo.preTradeReceiveTokenBalance then
    w.callSetToken fun s => Position.calculateAndEditDefaultPosition s module repayAsset
      repayAssetBalance actionInfo.setTotalSupply actionInfo.preTradeReceiveTokenBalance
  else pure w

/-- What `lever`, `delever` and `deleverToZeroBorrowBalance` check first. -/
def validateAction (w : LeverageWorld μ) (sender : Address) : Result Unit := do
  validateOnlyManagerAndValidSet w.setToken module sender
  require ((params w).collateralToken ≠ 0) "Collateral not set"

def lever (w : LeverageWorld μ) (sender : Address)
    (borrowQuantityUnits minReceiveQuantityUnits : Nat) (tradeAdapterName : String)
    (tradeData : List UInt8) : Result (LeverageWorld μ) := do
  validateAction module w sender
  let marketParams := params w
  let leverInfo ← createAndValidateActionInfo module w marketParams.loanToken
    marketParams.collateralToken borrowQuantityUnits minReceiveQuantityUnits tradeAdapterName true
  let w ← borrow morpho module w marketParams leverInfo.notionalSendQuantity
  let (w, postTradeReceiveQuantity) ← executeTrade module exchanges w leverInfo
    marketParams.loanToken marketParams.collateralToken tradeData
  let (w, protocolFee) ←
    accrueProtocolFee module w marketParams.collateralToken postTradeReceiveQuantity
  let postTradeCollateralQuantity ← SafeMath.sub postTradeReceiveQuantity protocolFee
  let w ← deposit morpho module w marketParams postTradeCollateralQuantity
  syncPositions morpho module w

def delever (w : LeverageWorld μ) (sender : Address)
    (redeemQuantityUnits minRepayQuantityUnits : Nat) (tradeAdapterName : String)
    (tradeData : List UInt8) : Result (LeverageWorld μ) := do
  validateAction module w sender
  let marketParams := params w
  let deleverInfo ← createAndValidateActionInfo module w marketParams.collateralToken
    marketParams.loanToken redeemQuantityUnits minRepayQuantityUnits tradeAdapterName false
  let w ← withdraw morpho module w marketParams deleverInfo.notionalSendQuantity
  let (w, postTradeReceiveQuantity) ← executeTrade module exchanges w deleverInfo
    marketParams.collateralToken marketParams.loanToken tradeData
  let (w, protocolFee) ←
    accrueProtocolFee module w marketParams.loanToken postTradeReceiveQuantity
  let repayQuantity ← SafeMath.sub postTradeReceiveQuantity protocolFee
  let w ← repayBorrow morpho module w marketParams repayQuantity 0
  let w ← updateRepayDefaultPosition module w deleverInfo marketParams.loanToken
  syncPositions morpho module w

def deleverToZeroBorrowBalance (w : LeverageWorld μ) (sender : Address)
    (redeemQuantityUnits : Nat) (tradeAdapterName : String) (tradeData : List UInt8) :
    Result (LeverageWorld μ) := do
  validateAction module w sender
  let marketParams := params w
  let setTotalSupply := w.setToken.totalSupply
  let notionalRedeemQuantity ← preciseMul redeemQuantityUnits setTotalSupply
  let (_, borrowBalance, borrowShares) ← getCollateralAndBorrowBalances morpho w marketParams
  let deleverInfo ← createAndValidateActionInfoNotional module w marketParams.collateralToken
    marketParams.loanToken notionalRedeemQuantity borrowBalance tradeAdapterName false setTotalSupply
  let w ← withdraw morpho module w marketParams deleverInfo.notionalSendQuantity
  let (w, _) ← executeTrade module exchanges w deleverInfo marketParams.collateralToken
    marketParams.loanToken tradeData
  let w ← repayBorrow morpho module w marketParams borrowBalance borrowShares
  let w ← updateRepayDefaultPosition module w deleverInfo marketParams.loanToken
  syncPositions morpho module w

/-- The collateral token turns from a default into an external position. -/
def enterCollateralPosition (w : LeverageWorld μ) (sender : Address) :
    Result (LeverageWorld μ) := do
  validateOnlyManagerAndValidSet w.setToken module sender
  let marketParams := params w
  let collateralBalance := w.balance marketParams.collateralToken
  require (0 < collateralBalance) "Collateral balance is 0"
  let w ← deposit morpho module w marketParams collateralBalance
  let w ← w.callSetToken (Position.editDefaultPosition · module marketParams.collateralToken 0)
  sync morpho module w

/-! ### Hooks of the issuance module -/

/-- What the hooks take for the quantity from the collateral position. -/
def notionalCollateral (s : SetToken) (component : Address) (setTokenQuantity : Nat) :
    Result Nat := do
  let componentCollateral ← s.getExternalPositionRealUnit component module
  require (0 < componentCollateral) "Component must be negative"
  let unit ← SafeCast.toUint256 componentCollateral
  preciseMul unit setTokenQuantity

/-- What the hooks take for the quantity from the debt position, rounded down. -/
def notionalDebt (s : SetToken) (component : Address) (setTokenQuantity : Nat) : Result Nat := do
  let componentDebt ← s.getExternalPositionRealUnit component module
  require (componentDebt < 0) "Component must be negative"
  let negated ← SignedSafeMath.mul componentDebt (-1)
  let unit ← SafeCast.toUint256 negated
  preciseMul unit setTokenQuantity

def moduleIssueHook (caller : Address) (w : LeverageWorld μ) (_ : Nat) :
    Result (LeverageWorld μ) := do
  w.setToken.validateOnlyModule caller
  sync morpho module w

def moduleRedeemHook (caller : Address) (w : LeverageWorld μ) (_ : Nat) :
    Result (LeverageWorld μ) := do
  w.setToken.validateOnlyModule caller
  sync morpho module w

def componentIssueHook (caller : Address) (w : LeverageWorld μ) (setTokenQuantity : Nat)
    (component : Address) (isEquity : Bool) : Result (LeverageWorld μ) := do
  w.setToken.validateOnlyModule caller
  let marketParams := params w
  if isEquity then
    if marketParams.collateralToken = component then
      let notional ← notionalCollateral module w.setToken component setTokenQuantity
      deposit morpho module w marketParams notional
    else pure w
  else
    require (marketParams.loanToken = component) "Debt component mismatch"
    let notional ← notionalDebt module w.setToken component setTokenQuantity
    borrow morpho module w marketParams notional

def componentRedeemHook (caller : Address) (w : LeverageWorld μ) (setTokenQuantity : Nat)
    (component : Address) (isEquity : Bool) : Result (LeverageWorld μ) := do
  w.setToken.validateOnlyModule caller
  let marketParams := params w
  if isEquity then
    if marketParams.collateralToken = component then
      let notional ← notionalCollateral module w.setToken component setTokenQuantity
      withdraw morpho module w marketParams notional
    else pure w
  else
    require (marketParams.loanToken = component) "Debt component mismatch"
    let notional ← notionalDebt module w.setToken component setTokenQuantity
    repayBorrow morpho module w marketParams notional 0

/-- The module as the issuance module sees it. -/
def issuanceHook : ModuleIssuanceHook (LeverageState μ) where
  moduleIssueHook := moduleIssueHook morpho module
  moduleRedeemHook := moduleRedeemHook morpho module
  componentIssueHook := componentIssueHook morpho module
  componentRedeemHook := componentRedeemHook morpho module

/-! ### Adding and removing the module -/

/-- A call that may fail; its failure changes nothing. -/
def tryCall (w : LeverageWorld μ) (call : LeverageWorld μ → Result (LeverageWorld μ)) :
    LeverageWorld μ :=
  match call w with
  | .ok v => v
  | .error _ => w

/-- The market must exist. -/
def setMarketParams (w : LeverageWorld μ) (newMarketParams : MarketParams) :
    Result (LeverageWorld μ) := do
  let market := morpho.market w.rest.others.morpho (morpho.id newMarketParams)
  require (market.lastUpdate ≠ 0) "Market not created"
  pure (withOthers w { w.rest.others with marketParams := newMarketParams })

/-- The module's `initialize`. Of the modules it tries to register with, the one at `issuance`
keeps the settings of this state. -/
def initializeSet (issuance : Address) (w : LeverageWorld μ) (sender : Address)
    (newMarketParams : MarketParams) : Result (LeverageWorld μ) := do
  validateOnlySetManager w.setToken sender
  validateOnlyValidAndPendingSet w.setToken module
  require (w.rest.others.anySetAllowed = true ∨ w.rest.others.allowedSetToken = true)
    "Not allowed SetToken"
  let w ← w.callSetToken (·.initializeModule module)
  let defaultIssuance ← getAndValidateAdapter w.setToken module defaultIssuanceModuleName
  require (w.setToken.isInitializedModule defaultIssuance = true) "Issuance not initialized"
  let w := if issuance ∈ w.setToken.modules then
    tryCall w (DebtIssuanceModule.registerToIssuanceModule issuance · module) else w
  setMarketParams morpho w newMarketParams

/-- What the SetToken calls when it removes the module. -/
def removeModule (issuance : Address) (w : LeverageWorld μ) : Result (LeverageWorld μ) := do
  validateOnlyValidAndInitializedSet w.setToken module
  let w ← sync morpho module w
  let w := withOthers w { w.rest.others with marketParams := .empty }
  let w := if issuance ∈ w.setToken.modules then
    tryCall w (DebtIssuanceModule.unregisterFromIssuanceModule issuance · module) else w
  pure w

/-- The manager removes this module from the SetToken. -/
def removeFromSet (issuance : Address) (w : LeverageWorld μ) (sender : Address) :
    Result (LeverageWorld μ) := do
  w.setToken.validateRemoveModule sender module
  let w ← removeModule morpho module issuance w
  w.callSetToken (·.finishRemoveModule module)

/-- Registers with the issuance module that keeps the settings of this state. -/
def registerToModule (issuance : Address) (w : LeverageWorld μ) (sender : Address) :
    Result (LeverageWorld μ) := do
  validateOnlyManagerAndValidSet w.setToken module sender
  require (w.setToken.isInitializedModule issuance = true) "Issuance not initialized"
  DebtIssuanceModule.registerToIssuanceModule issuance w module

end MorphoLeverageModule

end IndexProtocol
