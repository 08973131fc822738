import IndexProtocol.Strategy.Settings
import IndexProtocol.ArrayUtils

/-! The arithmetic of the leverage strategy.

Leverage is the value of the collateral over that value less the debt, values in
base units of the borrow asset. A rebalance trades a part of the collateral in
proportion to the change of the ratio, cut down to what the market lets be
borrowed or withdrawn and to the size of a trade. -/
namespace IndexProtocol
open Evm PreciseUnitMath

namespace MorphoLeverageStrategyExtension

def morphoOraclePriceScale : Nat := 10 ^ 36

structure ActionInfo where
  collateralBalance : Nat
  borrowBalance : Nat
  /-- The collateral in base units of the borrow asset. -/
  collateralValue : Nat
  collateralPrice : Nat
  setTotalSupply : Nat
  lltv : Nat
  deriving DecidableEq, Repr

structure LeverageInfo where
  action : ActionInfo
  currentLeverageRatio : Nat
  slippageTolerance : Nat
  twapMaxTradeSize : Nat
  exchangeName : String
  deriving DecidableEq, Repr

/-- Collateral in base units of the borrow asset. -/
def valueAt (collateralPrice collateral : Nat) : Result Nat := do
  let product ← SafeMath.mul collateral collateralPrice
  SafeMath.div product morphoOraclePriceScale

def calculateCurrentLeverageRatio (collateralValue borrowBalance : Nat) : Result Nat := do
  let equity ← SafeMath.sub collateralValue borrowBalance
  preciseDiv collateralValue equity

/-- Between the current and the target ratio, and within the bounds. -/
def calculateNewLeverageRatio (methodology : MethodologySettings) (currentLeverageRatio : Nat) :
    Result Nat := do
  let a ← preciseMul methodology.targetLeverageRatio methodology.recenteringSpeed
  let rest ← SafeMath.sub preciseUnit methodology.recenteringSpeed
  let b ← preciseMul rest currentLeverageRatio
  let c ← SafeMath.add a b
  let d := min c methodology.maxLeverageRatio
  pure (max methodology.minLeverageRatio d)

/-- What may be borrowed against the collateral, the unutilized part left out, in borrow asset. -/
def netBorrowLimit (execution : ExecutionSettings) (action : ActionInfo) : Result Nat := do
  let value ← valueAt action.collateralPrice action.collateralBalance
  let limit ← preciseMul value action.lltv
  let utilized ← SafeMath.sub preciseUnit execution.unutilizedLeveragePercentage
  preciseMul limit utilized

/-- In collateral. Borrowed is what is left to the limit, repaid its share of the collateral. -/
def calculateMaxBorrowCollateral (execution : ExecutionSettings) (action : ActionInfo)
    (isLever : Bool) : Result Nat := do
  let limit ← netBorrowLimit execution action
  if isLever then
    let left ← SafeMath.sub limit action.borrowBalance
    let scaled ← SafeMath.mul left morphoOraclePriceScale
    SafeMath.div scaled action.collateralPrice
  else
    let left ← SafeMath.sub limit action.borrowBalance
    let product ← preciseMul action.collateralBalance left
    preciseDiv product limit

/-- The part of a rebalance that one trade makes, and the whole, in collateral. -/
def calculateChunkRebalanceNotional (execution : ExecutionSettings) (leverageInfo : LeverageInfo)
    (newLeverageRatio : Nat) (isLever : Bool) : Result (Nat × Nat) := do
  let current := leverageInfo.currentLeverageRatio
  let leverageRatioDifference ← (if isLever then SafeMath.sub newLeverageRatio current
    else SafeMath.sub current newLeverageRatio)
  let fraction ← preciseDiv leverageRatioDifference current
  let totalRebalanceNotional ← preciseMul fraction leverageInfo.action.collateralBalance
  let maxBorrow ← calculateMaxBorrowCollateral execution leverageInfo.action isLever
  let chunkRebalanceNotional :=
    min (min maxBorrow totalRebalanceNotional) leverageInfo.twapMaxTradeSize
  pure (chunkRebalanceNotional, totalRebalanceNotional)

def calculateBorrowUnits (collateralRebalanceUnits : Nat) (action : ActionInfo) : Result Nat :=
  valueAt action.collateralPrice collateralRebalanceUnits

def calculateMinCollateralReceiveUnits (collateralRebalanceUnits slippageTolerance : Nat) :
    Result Nat := do
  let kept ← SafeMath.sub preciseUnit slippageTolerance
  preciseMul collateralRebalanceUnits kept

def calculateMinRepayUnits (collateralRebalanceUnits slippageTolerance : Nat)
    (action : ActionInfo) : Result Nat := do
  let value ← valueAt action.collateralPrice collateralRebalanceUnits
  let kept ← SafeMath.sub preciseUnit slippageTolerance
  preciseMul value kept

/-! ### What the calculations return -/

variable {execution : ExecutionSettings} {action : ActionInfo} {leverageInfo : LeverageInfo}

theorem valueAt_eq_ok {price collateral value : Nat} :
    valueAt price collateral = .ok value ↔
      collateral * price < uintBound ∧ collateral * price / morphoOraclePriceScale = value := by
  have hscale : 0 < morphoOraclePriceScale := by decide
  simp [valueAt, hscale]

theorem calculateCurrentLeverageRatio_eq_ok {value debt ratio : Nat} :
    calculateCurrentLeverageRatio value debt = .ok ratio ↔
      debt < value ∧ value * preciseUnit < uintBound ∧ value * preciseUnit / (value - debt) = ratio := by
  simp only [calculateCurrentLeverageRatio, bind_eq_ok, SafeMath.sub_eq_ok, preciseDiv_eq_ok]
  constructor
  · rintro ⟨_, ⟨_, hequity⟩, hbound, hpos, hratio⟩
    subst hequity
    exact ⟨by omega, hbound, hratio⟩
  · rintro ⟨hlt, hbound, hratio⟩
    exact ⟨_, ⟨by omega, rfl⟩, hbound, by omega, hratio⟩

/-- A chunk is at most the whole, and at most the size of a trade. -/
theorem chunk_le {newLeverageRatio chunk total : Nat} {isLever : Bool}
    (h : calculateChunkRebalanceNotional execution leverageInfo newLeverageRatio isLever =
      .ok (chunk, total)) : chunk ≤ total ∧ chunk ≤ leverageInfo.twapMaxTradeSize := by
  simp only [calculateChunkRebalanceNotional, bind_eq_ok, pure_eq_ok, Prod.mk.injEq] at h
  obtain ⟨_, _, _, _, total', _, maxBorrow, _, hchunk, htotal⟩ := h
  omega

end MorphoLeverageStrategyExtension

end IndexProtocol
