import IndexProtocol.PreciseUnitMath

/-! The settings of the leverage strategy.

Ratios and percentages are in precise units, periods in seconds, trade sizes in
base units of the collateral. The extension checks all settings but those of
exchanges together, whenever one of them is written. -/
namespace IndexProtocol
open Evm PreciseUnitMath

structure MethodologySettings where
  targetLeverageRatio : Nat
  minLeverageRatio : Nat
  maxLeverageRatio : Nat
  /-- How far a rebalance goes from the current to the target ratio. -/
  recenteringSpeed : Nat
  rebalanceInterval : Nat
  deriving DecidableEq, Repr

structure ExecutionSettings where
  unutilizedLeveragePercentage : Nat
  slippageTolerance : Nat
  twapCooldownPeriod : Nat
  deriving DecidableEq, Repr

structure ExchangeSettings where
  twapMaxTradeSize : Nat
  exchangeLastTradeTimestamp : Nat
  incentivizedTwapMaxTradeSize : Nat
  leverExchangeData : List UInt8
  deleverExchangeData : List UInt8
  deriving DecidableEq, Repr

structure IncentiveSettings where
  etherReward : Nat
  incentivizedLeverageRatio : Nat
  incentivizedSlippageTolerance : Nat
  incentivizedTwapCooldownPeriod : Nat
  deriving DecidableEq, Repr

/-- The value of the mapping where nothing was written. -/
def ExchangeSettings.empty : ExchangeSettings := ⟨0, 0, 0, [], []⟩

def validateNonExchangeSettings (methodology : MethodologySettings) (execution : ExecutionSettings)
    (incentive : IncentiveSettings) : Result Unit := do
  require (methodology.minLeverageRatio ≤ methodology.targetLeverageRatio ∧
    0 < methodology.minLeverageRatio) "Must be valid min leverage"
  require (methodology.targetLeverageRatio ≤ methodology.maxLeverageRatio)
    "Must be valid max leverage"
  require (methodology.recenteringSpeed ≤ preciseUnit ∧ 0 < methodology.recenteringSpeed)
    "Must be valid recentering speed"
  require (10 ^ 18 ≤ methodology.targetLeverageRatio) "Target leverage ratio must be >= 1e18"
  require (execution.unutilizedLeveragePercentage ≤ preciseUnit)
    "Unutilized leverage must be <100%"
  require (execution.slippageTolerance ≤ preciseUnit) "Slippage tolerance must be <100%"
  require (incentive.incentivizedSlippageTolerance ≤ preciseUnit)
    "Incentivized slippage tolerance must be <100%"
  require (methodology.maxLeverageRatio ≤ incentive.incentivizedLeverageRatio)
    "Incentivized leverage ratio must be > max leverage ratio"
  require (execution.twapCooldownPeriod ≤ methodology.rebalanceInterval)
    "Rebalance interval must be greater than TWAP cooldown period"
  require (incentive.incentivizedTwapCooldownPeriod ≤ execution.twapCooldownPeriod)
    "TWAP cooldown must be greater than incentivized TWAP cooldown"

def validateExchangeSettings (settings : ExchangeSettings) : Result Unit :=
  require (settings.twapMaxTradeSize ≠ 0) "Max TWAP trade size must not be 0"

/-- What the checks establish. -/
structure ValidSettings (methodology : MethodologySettings) (execution : ExecutionSettings)
    (incentive : IncentiveSettings) : Prop where
  min_le_target : methodology.minLeverageRatio ≤ methodology.targetLeverageRatio
  min_pos : 0 < methodology.minLeverageRatio
  target_le_max : methodology.targetLeverageRatio ≤ methodology.maxLeverageRatio
  speed_le : methodology.recenteringSpeed ≤ preciseUnit
  speed_pos : 0 < methodology.recenteringSpeed
  one_le_target : preciseUnit ≤ methodology.targetLeverageRatio
  unutilized_le : execution.unutilizedLeveragePercentage ≤ preciseUnit
  slippage_le : execution.slippageTolerance ≤ preciseUnit
  incentivizedSlippage_le : incentive.incentivizedSlippageTolerance ≤ preciseUnit
  max_le_incentivized : methodology.maxLeverageRatio ≤ incentive.incentivizedLeverageRatio
  cooldown_le_interval : execution.twapCooldownPeriod ≤ methodology.rebalanceInterval
  incentivizedCooldown_le : incentive.incentivizedTwapCooldownPeriod ≤ execution.twapCooldownPeriod

theorem validateNonExchangeSettings_eq_ok {methodology : MethodologySettings}
    {execution : ExecutionSettings} {incentive : IncentiveSettings} {u : Unit} :
    validateNonExchangeSettings methodology execution incentive = .ok u ↔
      ValidSettings methodology execution incentive := by
  simp only [validateNonExchangeSettings, bind_eq_ok, require_eq_ok, exists_const]
  constructor
  · rintro ⟨⟨h1, h2⟩, h3, ⟨h4, h5⟩, h6, h7, h8, h9, h10, h11, h12⟩
    exact ⟨h1, h2, h3, h4, h5, h6, h7, h8, h9, h10, h11, h12⟩
  · intro h
    exact ⟨⟨h.min_le_target, h.min_pos⟩, h.target_le_max, ⟨h.speed_le, h.speed_pos⟩,
      h.one_le_target, h.unutilized_le, h.slippage_le, h.incentivizedSlippage_le,
      h.max_le_incentivized, h.cooldown_le_interval, h.incentivizedCooldown_le⟩

@[simp] theorem validateExchangeSettings_eq_ok {settings : ExchangeSettings} {u : Unit} :
    validateExchangeSettings settings = .ok u ↔ settings.twapMaxTradeSize ≠ 0 := by
  simp [validateExchangeSettings]

end IndexProtocol
