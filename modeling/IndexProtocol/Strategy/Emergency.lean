import IndexProtocol.Strategy.Keeper

/-! When `ripcord` finds something to sell.

What may be withdrawn is computed from the limit that the unutilized percentage
leaves of what the market lends. A position between the two limits is healthy on
the market, but the computation subtracts its debt from the smaller one and
reverts. -/
namespace IndexProtocol
open Evm PreciseUnitMath Morpho

namespace MorphoLeverageStrategyExtension
variable {μ : Type}

/-- The debt is covered by the collateral times the loan to value ratio, as the market asks. -/
def Healthy (action : ActionInfo) : Prop :=
  action.borrowBalance * preciseUnit ≤ action.collateralValue * action.lltv

/-- What the unutilized percentage leaves of the market's limit, as a number. -/
def limitOf (execution : ExecutionSettings) (action : ActionInfo) : Nat :=
  action.collateralValue * action.lltv / preciseUnit *
    (preciseUnit - execution.unutilizedLeveragePercentage) / preciseUnit

/-- The part of the collateral that takes the ratio down to the maximum, in precise units. -/
def excessOf (ratio maxLeverageRatio : Nat) : Nat :=
  (ratio - maxLeverageRatio) * preciseUnit / ratio

/-- The debt is within the smaller limit, neither what may be withdrawn nor what is to be sold
rounds to nothing, and no product leaves 256 bits. -/
structure Deleverable (execution : ExecutionSettings) (action : ActionInfo)
    (ratio maxLeverageRatio : Nat) : Prop where
  within : action.borrowBalance ≤ limitOf execution action
  withdrawable : limitOf execution action ≤ action.collateralBalance *
    (limitOf execution action - action.borrowBalance) / preciseUnit * preciseUnit
  excess : preciseUnit ≤ excessOf ratio maxLeverageRatio * action.collateralBalance
  limit_fits : action.collateralValue * action.lltv < uintBound
  utilized_fits : action.collateralValue * action.lltv / preciseUnit *
    (preciseUnit - execution.unutilizedLeveragePercentage) < uintBound
  withdrawable_fits : action.collateralBalance *
    (limitOf execution action - action.borrowBalance) < uintBound
  ratio_fits : (ratio - maxLeverageRatio) * preciseUnit < uintBound
  excess_fits : excessOf ratio maxLeverageRatio * action.collateralBalance < uintBound

variable {execution : ExecutionSettings} {action : ActionInfo} {ratio maxLeverageRatio : Nat}

/-- The smaller limit is the stricter one. -/
theorem Deleverable.healthy (h : Deleverable execution action ratio maxLeverageRatio) :
    Healthy action := by
  have hpart : limitOf execution action ≤ action.collateralValue * action.lltv / preciseUnit := by
    refine Nat.div_le_of_le_mul ?_
    rw [Nat.mul_comm preciseUnit]
    exact Nat.mul_le_mul_left _ (Nat.sub_le _ _)
  exact (Nat.le_div_iff_mul_le preciseUnit_pos).mp (h.within.trans hpart)

/-- The value that the action information holds is the one that the limit is computed from. -/
def Priced (action : ActionInfo) : Prop :=
  valueAt action.collateralPrice action.collateralBalance = .ok action.collateralValue

theorem createActionInfo_priced {w : StrategyWorld μ} {morpho : MorphoBlue μ}
    (h : createActionInfo w morpho = .ok action) : Priced action := by
  simp only [createActionInfo, bind_eq_ok, pure_eq_ok] at h
  obtain ⟨_, _, _, _, ⟨_, _, _⟩, _, _, hvalue, rfl⟩ := h
  exact hvalue

theorem netBorrowLimit_eq_ok (hpriced : Priced action) {limit : Nat} :
    netBorrowLimit execution action = .ok limit ↔
      action.collateralValue * action.lltv < uintBound ∧
        execution.unutilizedLeveragePercentage ≤ preciseUnit ∧
        action.collateralValue * action.lltv / preciseUnit *
          (preciseUnit - execution.unutilizedLeveragePercentage) < uintBound ∧
        limitOf execution action = limit := by
  have hpriced' : valueAt action.collateralPrice action.collateralBalance =
    .ok action.collateralValue := hpriced
  simp only [netBorrowLimit, hpriced', ok_bind, bind_eq_ok, preciseMul_eq_ok, SafeMath.sub_eq_ok,
    limitOf]
  constructor
  · rintro ⟨_, ⟨hfits, hlimit⟩, _, ⟨hle, hutilized⟩, hfits', hresult⟩
    subst hlimit hutilized
    exact ⟨hfits, hle, hfits', hresult⟩
  · rintro ⟨hfits, hle, hfits', hresult⟩
    exact ⟨_, ⟨hfits, rfl⟩, _, ⟨hle, rfl⟩, hfits', hresult⟩

/-- What may be withdrawn. -/
theorem maxBorrow_delever_eq_ok (hpriced : Priced action)
    (hunutilized : execution.unutilizedLeveragePercentage ≤ preciseUnit)
    (hdebt : 0 < action.borrowBalance) {maxBorrow : Nat} :
    calculateMaxBorrowCollateral execution action false = .ok maxBorrow ↔
      action.collateralValue * action.lltv < uintBound ∧
        action.collateralValue * action.lltv / preciseUnit *
          (preciseUnit - execution.unutilizedLeveragePercentage) < uintBound ∧
        action.borrowBalance ≤ limitOf execution action ∧
        action.collateralBalance * (limitOf execution action - action.borrowBalance) < uintBound ∧
        action.collateralBalance * (limitOf execution action - action.borrowBalance) / preciseUnit *
          preciseUnit / limitOf execution action = maxBorrow := by
  simp only [calculateMaxBorrowCollateral, bind_eq_ok, netBorrowLimit_eq_ok hpriced,
    Bool.false_eq_true, if_false, SafeMath.sub_eq_ok, preciseMul_eq_ok, preciseDiv_eq_ok]
  constructor
  · rintro ⟨_, ⟨hfits, _, hfits', hlimit⟩, _, ⟨hle, hleft⟩, _, ⟨hproduct, hquotient⟩, _, _, hresult⟩
    subst hlimit hleft hquotient
    exact ⟨hfits, hfits', hle, hproduct, hresult⟩
  · rintro ⟨hfits, hfits', hle, hproduct, hresult⟩
    refine ⟨_, ⟨hfits, hunutilized, hfits', rfl⟩, _, ⟨hle, rfl⟩, _, ⟨hproduct, rfl⟩, ?_, ?_, hresult⟩
    · exact (Nat.div_mul_le_self _ _).trans_lt hproduct
    · omega

/-- **When emergency delevering is available.** Where `ripcord` may be called and the settings are
valid, it computes a chunk above zero exactly if the debt is within the limit less the unutilized
percentage, with room for rounding. -/
theorem ripcord_chunk_iff {w : StrategyWorld μ} {morpho : MorphoBlue μ} {exchangeName : String}
    {leverageInfo : LeverageInfo} (hvalid : validateSettings w.extension = .ok ())
    (hinfo : getAndValidateLeveragedInfo w morpho
      w.extension.incentive.incentivizedSlippageTolerance
      (w.extension.exchangeSettings exchangeName).incentivizedTwapMaxTradeSize exchangeName =
        .ok leverageInfo)
    (hripcord : validateRipcord w leverageInfo
      (w.extension.exchangeSettings exchangeName).exchangeLastTradeTimestamp = .ok ()) :
    (∃ chunk total, calculateChunkRebalanceNotional w.extension.execution leverageInfo
        w.extension.methodology.maxLeverageRatio false = .ok (chunk, total) ∧ 0 < chunk) ↔
      Deleverable w.extension.execution leverageInfo.action leverageInfo.currentLeverageRatio
        w.extension.methodology.maxLeverageRatio := by
  obtain ⟨hsize, hread, _, _, hdebt, _, _, htwap, _⟩ := getAndValidateLeveragedInfo_eq_ok.mp hinfo
  have hsettings := validateNonExchangeSettings_eq_ok.mp hvalid
  have hpriced := createActionInfo_priced hread
  have hratio : w.extension.incentive.incentivizedLeverageRatio ≤
      leverageInfo.currentLeverageRatio := by
    simp only [validateRipcord, bind_eq_ok, require_eq_ok] at hripcord
    obtain ⟨_, hratio, _⟩ := hripcord
    exact hratio
  have hmax : w.extension.methodology.maxLeverageRatio ≤ leverageInfo.currentLeverageRatio :=
    hsettings.max_le_incentivized.trans hratio
  have hpos : 0 < leverageInfo.currentLeverageRatio := by
    have := hsettings.min_pos
    have := hsettings.min_le_target
    have := hsettings.target_le_max
    omega
  simp only [calculateChunkRebalanceNotional, Bool.false_eq_true, if_false, bind_eq_ok,
    SafeMath.sub_eq_ok, preciseDiv_eq_ok, preciseMul_eq_ok,
    maxBorrow_delever_eq_ok hpriced hsettings.unutilized_le hdebt, pure_eq_ok, Prod.mk.injEq]
  constructor
  · rintro ⟨chunk, total, ⟨_, ⟨_, hdiff⟩, _, ⟨hratioFits, _, hfraction⟩, _, ⟨hexcessFits, htotal⟩, _,
      ⟨hlimit, hutilized, hwithin, hproduct, hmaxBorrow⟩, hchunk, _⟩, hchunkPos⟩
    subst hdiff hfraction htotal hmaxBorrow hchunk
    obtain ⟨hboth, _⟩ := lt_min_iff.mp hchunkPos
    obtain ⟨hwithdrawable, hexcess⟩ := lt_min_iff.mp hboth
    refine ⟨hwithin, ?_, ?_, hlimit, hutilized, hproduct, hratioFits, hexcessFits⟩
    · exact (Nat.div_pos_iff.mp hwithdrawable).2
    · exact (Nat.div_pos_iff.mp hexcess).2
  · intro hdeleverable
    have hlimitPos : 0 < limitOf w.extension.execution leverageInfo.action :=
      hdebt.trans_le hdeleverable.within
    refine ⟨_, _, ⟨_, ⟨hmax, rfl⟩, _, ⟨hdeleverable.ratio_fits, hpos, rfl⟩, _,
      ⟨hdeleverable.excess_fits, rfl⟩, _, ⟨hdeleverable.limit_fits, hdeleverable.utilized_fits,
        hdeleverable.within, hdeleverable.withdrawable_fits, rfl⟩, rfl, rfl⟩, ?_⟩
    refine lt_min (lt_min ?_ ?_) (htwap ▸ hsize)
    · exact Nat.div_pos hdeleverable.withdrawable hlimitPos
    · exact Nat.div_pos hdeleverable.excess preciseUnit_pos

theorem ripcord_chunk_iff_example : ∃ w info,
    exampleStrategy 5000 0 (3 * 10 ^ 24) (2 * 10 ^ 24) = .ok w ∧
    getAndValidateLeveragedInfo w reference (5 * 10 ^ 16) (10 ^ 24) "exchange" = .ok info ∧
    Deleverable w.extension.execution info.action info.currentLeverageRatio
      w.extension.methodology.maxLeverageRatio := by
  have h : (do
      let w ← exampleStrategy 5000 0 (3 * 10 ^ 24) (2 * 10 ^ 24)
      validateSettings w.extension
      require (w.extension.incentive = exampleIncentive ∧
        w.extension.exchangeSettings "exchange" = ExchangeSettings.mk (10 ^ 23) 0 (10 ^ 24) [] []) ""
      let info ← getAndValidateLeveragedInfo w reference (5 * 10 ^ 16) (10 ^ 24) "exchange"
      validateRipcord w info 0
      let sized ← calculateChunkRebalanceNotional w.extension.execution info
        w.extension.methodology.maxLeverageRatio false
      require (0 < sized.1) "") = .ok () := by
    decide +kernel
  simp only [bind_eq_ok, require_eq_ok, exists_const] at h
  obtain ⟨w, hw, ⟨⟩, hvalid, ⟨hincentive, hexchange⟩, info, hinfo, ⟨⟩, hripcord, ⟨chunk, total⟩,
    hchunk, hpos⟩ := h
  have hinfo' : getAndValidateLeveragedInfo w reference
      w.extension.incentive.incentivizedSlippageTolerance
      (w.extension.exchangeSettings "exchange").incentivizedTwapMaxTradeSize "exchange" =
        .ok info := by
    rw [hincentive, hexchange]
    exact hinfo
  have hripcord' : validateRipcord w info
      (w.extension.exchangeSettings "exchange").exchangeLastTradeTimestamp = .ok () := by
    rw [hexchange]
    exact hripcord
  exact ⟨w, info, hw, hinfo,
    (ripcord_chunk_iff hvalid hinfo' hripcord').mp ⟨chunk, total, hchunk, hpos⟩⟩

/-- A healthy position between the two limits, with `ripcord` due. -/
theorem ripcord_reverts : ∃ w info,
    exampleStrategy 5000 0 (1000 * 10 ^ 24) (855 * 10 ^ 24) = .ok w ∧
    getAndValidateLeveragedInfo w reference (5 * 10 ^ 16) (10 ^ 24) "exchange" = .ok info ∧
    validateSettings w.extension = .ok () ∧ validateRipcord w info 0 = .ok () ∧
    Healthy info.action ∧
    calculateChunkRebalanceNotional w.extension.execution info
      w.extension.methodology.maxLeverageRatio false = .error "SafeMath: subtraction overflow" := by
  have h : (do
      let w ← exampleStrategy 5000 0 (1000 * 10 ^ 24) (855 * 10 ^ 24)
      let info ← getAndValidateLeveragedInfo w reference (5 * 10 ^ 16) (10 ^ 24) "exchange"
      validateSettings w.extension
      validateRipcord w info 0
      require (info.action.borrowBalance * preciseUnit ≤
        info.action.collateralValue * info.action.lltv) ""
      require (calculateChunkRebalanceNotional w.extension.execution info
        w.extension.methodology.maxLeverageRatio false =
          Except.error "SafeMath: subtraction overflow") "") = .ok () := by
    decide +kernel
  simp only [bind_eq_ok, require_eq_ok, exists_const] at h
  obtain ⟨w, hw, info, hinfo, ⟨⟩, hvalid, ⟨⟩, hripcord, hhealthy, hreverts⟩ := h
  exact ⟨w, info, hw, hinfo, hvalid, hripcord, hhealthy, hreverts⟩

end MorphoLeverageStrategyExtension

end IndexProtocol
