import IndexProtocol.ArrayUtils
import IndexProtocol.Evm.Checked
import IndexProtocol.Evm.Program

/-! The MigrationExtension: a SetToken's collateral moved into a wrapped SetToken.

The operator has one of three lenders lend the underlying token; the lender calls
the extension back, which migrates with the loan and pays it back. Every function
is a program, since each of its calls may come back. -/
namespace IndexProtocol
open Evm

namespace MigrationExtension

structure DecodedParams where
  supplyLiquidityAmount0Desired : Nat
  supplyLiquidityAmount1Desired : Nat
  supplyLiquidityAmount0Min : Nat
  supplyLiquidityAmount1Min : Nat
  tokenId : Nat
  exchangeName : String
  underlyingTradeUnits : Nat
  wrappedSetTokenTradeUnits : Nat
  exchangeData : List UInt8
  redeemLiquidityAmount0Min : Nat
  redeemLiquidityAmount1Min : Nat
  isUnderlyingToken0 : Bool
  deriving DecidableEq

structure MintParams where
  token0 : Address
  token1 : Address
  fee : Nat
  tickLower : Int
  tickUpper : Int
  amount0Desired : Nat
  amount1Desired : Nat
  amount0Min : Nat
  amount1Min : Nat
  recipient : Address
  deadline : Nat

structure IncreaseLiquidityParams where
  tokenId : Nat
  amount0Desired : Nat
  amount1Desired : Nat
  amount0Min : Nat
  amount1Min : Nat
  deadline : Nat

structure DecreaseLiquidityParams where
  tokenId : Nat
  liquidity : Nat
  amount0Min : Nat
  amount1Min : Nat
  deadline : Nat

structure CollectParams where
  tokenId : Nat
  recipient : Address
  amount0Max : Nat
  amount1Max : Nat

/-- What the manager has the trade module do. -/
inductive TradeModuleCall where
  | initializeSet (setToken : Address)
  | trade (setToken : Address) (exchangeName : String) (sendToken : Address) (sendQuantity : Nat)
    (receiveToken : Address) (minReceiveQuantity : Nat) (data : List UInt8)

/-- The calls that the extension makes. `β` are encoded parameters. -/
inductive Call (β : Type) where
  | transferFrom (token sender recipient : Address) (amount : Nat)
  | approve (token spender : Address) (amount : Nat)
  | transfer (token recipient : Address) (amount : Nat)
  | supply (asset : Address) (amount : Nat) (onBehalfOf : Address)
  | withdraw (asset : Address) (amount : Nat) (recipient : Address)
  | issue (setToken : Address) (quantity : Nat) (recipient : Address)
  | redeem (setToken : Address) (quantity : Nat) (recipient : Address)
  | mint (params : MintParams)
  | increaseLiquidity (params : IncreaseLiquidityParams)
  | decreaseLiquidity (params : DecreaseLiquidityParams)
  | collect (params : CollectParams)
  | interactManager (target : Address) (call : TradeModuleCall)
  | flashLoanSimple (receiver asset : Address) (amount : Nat) (params : β)
  | flashLoan (recipient : Address) (tokens : List Address) (amounts : List Nat) (userData : β)
  | morphoFlashLoan (token : Address) (assets : Nat) (data : β)

/-- What the extension reads of the other contracts, and how parameters are encoded. -/
structure Surroundings (ω β : Type) where
  operator : ω → Address
  balanceOf : Address → Address → ω → Nat
  /-- Components, equity units and debt units. -/
  getRequiredComponentIssuanceUnits :
    Address → Nat → ω → Result (List Address × List Nat × List Nat)
  timestamp : ω → Nat
  encode : DecodedParams → β
  decode : β → Result DecodedParams
  decode_encode : ∀ p, decode (encode p) = .ok p

end MigrationExtension

/-- What the constructor sets for good. -/
structure MigrationExtension where
  self : Address
  setToken : Address
  underlyingToken : Address
  aaveToken : Address
  wrappedSetToken : Address
  tradeModule : Address
  issuanceModule : Address
  nonfungiblePositionManager : Address
  pool : Address
  morpho : Address
  balancer : Address

structure MigrationWorld (ω : Type) where
  tokenIds : List Nat
  others : ω

namespace MigrationExtension
variable {ω β : Type}

abbrev Running (ω β : Type) := Program (MigrationWorld ω) (Call β)

variable (e : Surroundings ω β) (x : MigrationExtension)

/-- The element at index 0. -/
def first : List Nat → Result Nat
  | [] => revert "invalid opcode"
  | amount :: _ => .ok amount

def onlyOperator (w : MigrationWorld ω) (sender : Address) : Result Unit :=
  require (sender = e.operator w.others) "Must be operator"

def balanceOf (token : Address) : Running ω β Nat :=
  .view fun w => .ok (e.balanceOf token x.self w.others)

def timestamp : Running ω β Nat := .view fun w => .ok (e.timestamp w.others)

/-! ### What the functions do within -/

/-- `_trade`. -/
def invokeTrade (exchangeName : String) (sendToken : Address) (sendQuantity : Nat)
    (receiveToken : Address) (minReceiveQuantity : Nat) (data : List UInt8) : Running ω β Unit :=
  .tell (.interactManager x.tradeModule
    (.trade x.setToken exchangeName sendToken sendQuantity receiveToken minReceiveQuantity data))

/-- `_issueRequiredWrappedSetToken`: issues what is missing of the wrapped SetToken. -/
def issueRequiredWrappedSetToken (wrappedSetTokenSupplyLiquidityAmount : Nat) :
    Running ω β Unit := do
  let wrappedSetTokenBalance ← balanceOf e x x.wrappedSetToken
  .whenever (wrappedSetTokenBalance < wrappedSetTokenSupplyLiquidityAmount) do
    let wrappedSetTokenIssueAmount :=
      wrappedSetTokenSupplyLiquidityAmount - wrappedSetTokenBalance
    let (underlyingAssets, underlyingUnits, _) ← .view fun w =>
      e.getRequiredComponentIssuanceUnits x.wrappedSetToken wrappedSetTokenIssueAmount w.others
    .require (underlyingAssets.length = 1)
      "MigrationExtension: invalid wrapped SetToken composition"
    .require (underlyingAssets.head? = some x.aaveToken)
      "MigrationExtension: wrapped SetToken underlying mismatch"
    let underlyingUnit ← .ofResult (first underlyingUnits)
    .tell (.approve x.underlyingToken x.pool underlyingUnit)
    .tell (.supply x.underlyingToken underlyingUnit x.self)
    .tell (.approve x.aaveToken x.issuanceModule wrappedSetTokenIssueAmount)
    .tell (.issue x.wrappedSetToken wrappedSetTokenIssueAmount x.self)

/-- `_redeemExcessWrappedSetToken`. -/
def redeemExcessWrappedSetToken : Running ω β Unit := do
  let wrappedSetTokenBalance ← balanceOf e x x.wrappedSetToken
  .whenever (0 < wrappedSetTokenBalance) do
    .tell (.approve x.wrappedSetToken x.issuanceModule wrappedSetTokenBalance)
    .tell (.redeem x.wrappedSetToken wrappedSetTokenBalance x.self)
    let aaveBalance ← balanceOf e x x.aaveToken
    .tell (.approve x.aaveToken x.pool aaveBalance)
    .tell (.withdraw x.underlyingToken aaveBalance x.self)

/-- What is approved before liquidity is minted or increased. -/
def approveLiquidity (underlyingAmount wrappedSetTokenAmount : Nat) : Running ω β Unit := do
  .whenever (0 < underlyingAmount)
    (.tell (.approve x.underlyingToken x.nonfungiblePositionManager underlyingAmount))
  .whenever (0 < wrappedSetTokenAmount)
    (.tell (.approve x.wrappedSetToken x.nonfungiblePositionManager wrappedSetTokenAmount))

/-- `_mintLiquidityPosition`. -/
def mintPosition (amount0Desired amount1Desired amount0Min amount1Min : Nat)
    (tickLower tickUpper : Int) (fee : Nat) (isUnderlyingToken0 : Bool) : Running ω β Unit := do
  let (token0, token1, underlyingAmount, wrappedSetTokenAmount) :=
    if isUnderlyingToken0 then
      (x.underlyingToken, x.wrappedSetToken, amount0Desired, amount1Desired)
    else (x.wrappedSetToken, x.underlyingToken, amount1Desired, amount0Desired)
  approveLiquidity x underlyingAmount wrappedSetTokenAmount
  let deadline ← timestamp e
  let tokenId ← .ask (.mint ⟨token0, token1, fee, tickLower, tickUpper, amount0Desired,
    amount1Desired, amount0Min, amount1Min, x.self, deadline⟩)
  .modify fun w => { w with tokenIds := w.tokenIds ++ [tokenId] }

/-- `_increaseLiquidityPosition`, which returns the liquidity. -/
def increasePosition (amount0Desired amount1Desired amount0Min amount1Min tokenId : Nat)
    (isUnderlyingToken0 : Bool) : Running ω β Nat := do
  let (underlyingAmount, wrappedSetTokenAmount) :=
    if isUnderlyingToken0 then (amount0Desired, amount1Desired)
    else (amount1Desired, amount0Desired)
  approveLiquidity x underlyingAmount wrappedSetTokenAmount
  let deadline ← timestamp e
  .ask (.increaseLiquidity
    ⟨tokenId, amount0Desired, amount1Desired, amount0Min, amount1Min, deadline⟩)

/-- `_decreaseLiquidityPosition`. -/
def decreasePosition (tokenId liquidity amount0Min amount1Min : Nat) : Running ω β Unit := do
  let deadline ← timestamp e
  .tell (.decreaseLiquidity ⟨tokenId, liquidity, amount0Min, amount1Min, deadline⟩)
  .tell (.collect ⟨tokenId, x.self, 2 ^ 128 - 1, 2 ^ 128 - 1⟩)

/-- `_returnExcessUnderlying`. -/
def returnExcessUnderlying (sender : Address) : Running ω β Nat := do
  let underlyingOutputAmount ← balanceOf e x x.underlyingToken
  .whenever (0 < underlyingOutputAmount)
    (.tell (.transfer x.underlyingToken sender underlyingOutputAmount))
  pure underlyingOutputAmount

/-- `_migrate`. -/
def migrate (decodedParams : DecodedParams) : Running ω β Unit := do
  issueRequiredWrappedSetToken e x
    (if decodedParams.isUnderlyingToken0 then decodedParams.supplyLiquidityAmount1Desired
      else decodedParams.supplyLiquidityAmount0Desired)
  let liquidity ← increasePosition e x
    decodedParams.supplyLiquidityAmount0Desired decodedParams.supplyLiquidityAmount1Desired
    decodedParams.supplyLiquidityAmount0Min decodedParams.supplyLiquidityAmount1Min
    decodedParams.tokenId decodedParams.isUnderlyingToken0
  invokeTrade x decodedParams.exchangeName x.underlyingToken decodedParams.underlyingTradeUnits
    x.wrappedSetToken decodedParams.wrappedSetTokenTradeUnits decodedParams.exchangeData
  decreasePosition e x decodedParams.tokenId liquidity
    decodedParams.redeemLiquidityAmount0Min decodedParams.redeemLiquidityAmount1Min
  redeemExcessWrappedSetToken e x

/-! ### The operator's functions but the migrations -/

inductive OperatorCall where
  | initializeSet
  | trade (exchangeName : String) (sendToken : Address) (sendQuantity : Nat)
    (receiveToken : Address) (minReceiveQuantity : Nat) (data : List UInt8)
  | mintLiquidityPosition (amount0Desired amount1Desired amount0Min amount1Min : Nat)
    (tickLower tickUpper : Int) (fee : Nat) (isUnderlyingToken0 : Bool)
  | increaseLiquidityPosition (amount0Desired amount1Desired amount0Min amount1Min tokenId : Nat)
    (isUnderlyingToken0 : Bool)
  | decreaseLiquidityPosition (tokenId liquidity amount0Min amount1Min : Nat)
  | sweepTokens (token : Address)

/-- What each of them does for the operator. -/
def OperatorCall.program : OperatorCall → Running ω β Nat
  | .initializeSet => do
    .tell (.interactManager x.tradeModule (.initializeSet x.setToken))
    pure 0
  | .trade exchangeName sendToken sendQuantity receiveToken minReceiveQuantity data => do
    invokeTrade x exchangeName sendToken sendQuantity receiveToken minReceiveQuantity data
    pure 0
  | .mintLiquidityPosition amount0Desired amount1Desired amount0Min amount1Min tickLower tickUpper
      fee isUnderlyingToken0 => do
    mintPosition e x amount0Desired amount1Desired amount0Min amount1Min tickLower tickUpper fee
      isUnderlyingToken0
    pure 0
  | .increaseLiquidityPosition amount0Desired amount1Desired amount0Min amount1Min tokenId
      isUnderlyingToken0 =>
    increasePosition e x amount0Desired amount1Desired amount0Min amount1Min tokenId
      isUnderlyingToken0
  | .decreaseLiquidityPosition tokenId liquidity amount0Min amount1Min => do
    decreasePosition e x tokenId liquidity amount0Min amount1Min
    pure 0
  | .sweepTokens token => do
    let balance ← balanceOf e x token
    .require (0 < balance) "MigrationExtension: no balance to sweep"
    let operator ← .view fun w => .ok (e.operator w.others)
    .tell (.transfer token operator balance)
    pure 0

def operate (w : MigrationWorld ω) (sender : Address) (call : OperatorCall) :
    Result (Running ω β Nat) := do
  onlyOperator e w sender
  pure (call.program e x)

/-! ### Migrations -/

inductive Lender where
  | aave
  | balancer
  | morpho
  deriving DecidableEq

/-- The loan that a migration asks for. -/
def Lender.flashLoan (lender : Lender) (underlyingLoanAmount : Nat) (params : β) : Call β :=
  match lender with
  | .aave => .flashLoanSimple x.self x.underlyingToken underlyingLoanAmount params
  | .balancer => .flashLoan x.self [x.underlyingToken] [underlyingLoanAmount] params
  | .morpho => .morphoFlashLoan x.underlyingToken underlyingLoanAmount params

/-- What the three migrations share: a subsidy, a loan, what is left to the operator. -/
def migrateWith (lender : Lender) (w : MigrationWorld ω) (sender : Address)
    (decodedParams : DecodedParams) (underlyingLoanAmount maxSubsidy : Nat) :
    Result (Running ω β Nat) := do
  onlyOperator e w sender
  pure do
    .whenever (0 < maxSubsidy) (.tell (.transferFrom x.underlyingToken sender x.self maxSubsidy))
    .tell (lender.flashLoan x underlyingLoanAmount (e.encode decodedParams))
    returnExcessUnderlying e x sender

def migrateAave := migrateWith e x .aave

def migrateBalancer := migrateWith e x .balancer

def migrateMorpho := migrateWith e x .morpho

/-! ### Callbacks: the parameters that they migrate with, and what they do -/

/-- Aave's callback. -/
def executeOperation (sender : Address) (amount premium : Nat) (initiator : Address) (params : β) :
    Result (DecodedParams × Running ω β Nat) := do
  require (sender = x.pool) "MigrationExtension: invalid flashloan sender"
  require (initiator = x.self) "MigrationExtension: invalid flashloan initiator"
  let decodedParams ← e.decode params
  pure (decodedParams, do
    migrate e x decodedParams
    .tell (.approve x.underlyingToken x.pool ((amount + premium) % uintBound))
    pure 1)

/-- Balancer's callback. -/
def receiveFlashLoan (sender : Address) (amounts feeAmounts : List Nat) (params : β) :
    Result (DecodedParams × Running ω β Nat) := do
  require (sender = x.balancer) ""
  let decodedParams ← e.decode params
  pure (decodedParams, do
    migrate e x decodedParams
    let amount ← .ofResult (first amounts)
    let feeAmount ← .ofResult (first feeAmounts)
    .tell (.transfer x.underlyingToken x.balancer ((amount + feeAmount) % uintBound))
    pure 0)

/-- Morpho's callback. -/
def onMorphoFlashLoan (sender : Address) (assets : Nat) (params : β) :
    Result (DecodedParams × Running ω β Nat) := do
  require (sender = x.morpho) "MigrationExtension: invalid flashloan sender"
  let decodedParams ← e.decode params
  pure (decodedParams, do
    migrate e x decodedParams
    .tell (.approve x.underlyingToken x.morpho assets)
    pure 0)

end MigrationExtension

end IndexProtocol
