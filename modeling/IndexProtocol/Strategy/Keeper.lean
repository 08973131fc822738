import IndexProtocol.Strategy.Extension
import IndexProtocol.Leverage.Sync

/-! What keepers are told, and what they may then call.

`shouldRebalance` and the functions that trade check the same things, each in its
own words: the leverage ratio against its thresholds, the cooldowns, the state of
a rebalance in progress, the size of a trade. They agree but in two cases, of
which `predicts_iff` is the exact account. -/
namespace IndexProtocol
open Evm PreciseUnitMath Morpho

namespace MorphoLeverageStrategyExtension
variable {μ : Type}

/-! ### The preconditions of the trading functions -/

section Allowed
variable (w : StrategyWorld μ) (morpho : MorphoBlue μ) (exchangeName : String)

def RipcordAllowed : Prop :=
  ∃ leverageInfo, getAndValidateLeveragedInfo w morpho
      w.extension.incentive.incentivizedSlippageTolerance
      (w.extension.exchangeSettings exchangeName).incentivizedTwapMaxTradeSize exchangeName =
        .ok leverageInfo ∧
    validateRipcord w leverageInfo
      (w.extension.exchangeSettings exchangeName).exchangeLastTradeTimestamp = .ok ()

def IterateAllowed : Prop :=
  ∃ leverageInfo, getAndValidateLeveragedInfo w morpho w.extension.execution.slippageTolerance
      (w.extension.exchangeSettings exchangeName).twapMaxTradeSize exchangeName =
        .ok leverageInfo ∧
    validateNormalRebalance w leverageInfo w.extension.execution.twapCooldownPeriod
      (w.extension.exchangeSettings exchangeName).exchangeLastTradeTimestamp = .ok () ∧
    validateTWAP w = .ok ()

def RebalanceAllowed : Prop :=
  ∃ leverageInfo, getAndValidateLeveragedInfo w morpho w.extension.execution.slippageTolerance
      (w.extension.exchangeSettings exchangeName).twapMaxTradeSize exchangeName =
        .ok leverageInfo ∧
    validateNormalRebalance w leverageInfo w.extension.methodology.rebalanceInterval
      w.extension.globalLastTradeTimestamp = .ok () ∧
    validateNonTWAP w = .ok ()

/-- The answer names the function to call: `ripcord` before `iterateRebalance` before `rebalance`,
and none where none may be called. -/
structure Predicts (action : ShouldRebalance) : Prop where
  ripcord : action = .ripcord ↔ RipcordAllowed w morpho exchangeName
  iterate : action = .iterateRebalance ↔
    IterateAllowed w morpho exchangeName ∧ ¬RipcordAllowed w morpho exchangeName
  rebalance : action = .rebalance ↔ RebalanceAllowed w morpho exchangeName ∧
    ¬IterateAllowed w morpho exchangeName ∧ ¬RipcordAllowed w morpho exchangeName
  none : action = .none ↔ ¬RebalanceAllowed w morpho exchangeName ∧
    ¬IterateAllowed w morpho exchangeName ∧ ¬RipcordAllowed w morpho exchangeName

end Allowed

variable {w : StrategyWorld μ} {morpho : MorphoBlue μ} {exchangeName : String}

/-- What the common checks of the trading functions establish. -/
theorem getAndValidateLeveragedInfo_eq_ok {slippageTolerance size : Nat}
    {leverageInfo : LeverageInfo} :
    getAndValidateLeveragedInfo w morpho slippageTolerance size exchangeName = .ok leverageInfo ↔
      0 < size ∧ createActionInfo w morpho = .ok leverageInfo.action ∧
        0 < leverageInfo.action.setTotalSupply ∧ 0 < leverageInfo.action.collateralBalance ∧
        0 < leverageInfo.action.borrowBalance ∧
        calculateCurrentLeverageRatio leverageInfo.action.collateralValue
          leverageInfo.action.borrowBalance = .ok leverageInfo.currentLeverageRatio ∧
        leverageInfo.slippageTolerance = slippageTolerance ∧
        leverageInfo.twapMaxTradeSize = size ∧ leverageInfo.exchangeName = exchangeName := by
  simp only [getAndValidateLeveragedInfo, bind_eq_ok, require_eq_ok, exists_const, pure_eq_ok]
  constructor
  · rintro ⟨hsize, action, haction, hsupply, hcollateral, hdebt, ratio, hratio, heq⟩
    subst heq
    exact ⟨hsize, haction, hsupply, hcollateral, hdebt, hratio, rfl, rfl, rfl⟩
  · rintro ⟨hsize, haction, hsupply, hcollateral, hdebt, hratio, hslippage, htwap, hname⟩
    subst hslippage htwap hname
    exact ⟨hsize, _, haction, hsupply, hcollateral, hdebt, _, hratio, rfl⟩

/-- The SetToken has shares, collateral and debt, and a leverage ratio. -/
structure Leveraged (w : StrategyWorld μ) (morpho : MorphoBlue μ) (action : ActionInfo)
    (ratio : Nat) : Prop where
  read : createActionInfo w morpho = .ok action
  supply : 0 < action.setTotalSupply
  collateral : 0 < action.collateralBalance
  debt : 0 < action.borrowBalance
  ratio : calculateCurrentLeverageRatio action.collateralValue action.borrowBalance = .ok ratio

namespace Leveraged
variable {action : ActionInfo} {ratio : Nat} (h : Leveraged w morpho action ratio)
include h

theorem getCurrentLeverageRatio : getCurrentLeverageRatio w morpho = .ok ratio := by
  rw [MorphoLeverageStrategyExtension.getCurrentLeverageRatio, h.read, ok_bind, h.ratio]

/-- The common checks then ask for a size only. -/
theorem getAndValidate {slippageTolerance size : Nat} {leverageInfo : LeverageInfo} :
    getAndValidateLeveragedInfo w morpho slippageTolerance size exchangeName = .ok leverageInfo ↔
      0 < size ∧ leverageInfo = ⟨action, ratio, slippageTolerance, size, exchangeName⟩ := by
  rw [getAndValidateLeveragedInfo_eq_ok]
  constructor
  · rintro ⟨hsize, haction, _, _, _, hratio, hslippage, htwap, hname⟩
    obtain rfl : action = leverageInfo.action := Except.ok.inj (h.read.symm.trans haction)
    obtain rfl : ratio = leverageInfo.currentLeverageRatio := Except.ok.inj (h.ratio.symm.trans hratio)
    subst hslippage htwap hname
    exact ⟨hsize, rfl⟩
  · rintro ⟨hsize, heq⟩
    subst heq
    exact ⟨hsize, h.read, h.supply, h.collateral, h.debt, h.ratio, rfl, rfl, rfl⟩

theorem ripcordAllowed_iff :
    RipcordAllowed w morpho exchangeName ↔
      0 < (w.extension.exchangeSettings exchangeName).incentivizedTwapMaxTradeSize ∧
        w.extension.incentive.incentivizedLeverageRatio ≤ ratio ∧
        ∃ ready, SafeMath.add (w.extension.exchangeSettings exchangeName).exchangeLastTradeTimestamp
            w.extension.incentive.incentivizedTwapCooldownPeriod = .ok ready ∧
          ready < timestamp w := by
  simp only [RipcordAllowed, h.getAndValidate, validateRipcord, bind_eq_ok, require_eq_ok,
    exists_const]
  constructor
  · rintro ⟨_, ⟨hsize, heq⟩, hready⟩
    subst heq
    exact ⟨hsize, hready⟩
  · rintro ⟨hsize, hready⟩
    exact ⟨_, ⟨hsize, rfl⟩, hready⟩

/-- Both functions of keepers, with their cooldown, time of the last trade and TWAP state. -/
theorem normalAllowed_iff {coolDown last : Nat} {twapState : Result Unit} :
    (∃ leverageInfo, getAndValidateLeveragedInfo w morpho w.extension.execution.slippageTolerance
        (w.extension.exchangeSettings exchangeName).twapMaxTradeSize exchangeName =
          .ok leverageInfo ∧
      validateNormalRebalance w leverageInfo coolDown last = .ok () ∧ twapState = .ok ()) ↔
      0 < (w.extension.exchangeSettings exchangeName).twapMaxTradeSize ∧
        ratio < w.extension.incentive.incentivizedLeverageRatio ∧ last ≤ timestamp w ∧
        (coolDown < timestamp w - last ∨ w.extension.methodology.maxLeverageRatio < ratio ∨
          ratio < w.extension.methodology.minLeverageRatio) ∧ twapState = .ok () := by
  simp only [h.getAndValidate, validateNormalRebalance, bind_eq_ok, require_eq_ok, exists_const,
    SafeMath.sub_eq_ok]
  constructor
  · rintro ⟨_, ⟨hsize, heq⟩, ⟨hratio, _, ⟨hlast, helapsed⟩, hdue⟩, htwap⟩
    subst heq helapsed
    exact ⟨hsize, hratio, hlast, hdue, htwap⟩
  · rintro ⟨hsize, hratio, hlast, hdue, htwap⟩
    exact ⟨_, ⟨hsize, rfl⟩, ⟨hratio, _, ⟨hlast, rfl⟩, hdue⟩, htwap⟩

theorem iterateAllowed_iff :
    IterateAllowed w morpho exchangeName ↔
      0 < (w.extension.exchangeSettings exchangeName).twapMaxTradeSize ∧
        ratio < w.extension.incentive.incentivizedLeverageRatio ∧
        (w.extension.exchangeSettings exchangeName).exchangeLastTradeTimestamp ≤ timestamp w ∧
        (w.extension.execution.twapCooldownPeriod <
            timestamp w - (w.extension.exchangeSettings exchangeName).exchangeLastTradeTimestamp ∨
          w.extension.methodology.maxLeverageRatio < ratio ∨
          ratio < w.extension.methodology.minLeverageRatio) ∧
        0 < w.extension.twapLeverageRatio := by
  rw [IterateAllowed, h.normalAllowed_iff, validateTWAP, require_eq_ok]

theorem rebalanceAllowed_iff :
    RebalanceAllowed w morpho exchangeName ↔
      0 < (w.extension.exchangeSettings exchangeName).twapMaxTradeSize ∧
        ratio < w.extension.incentive.incentivizedLeverageRatio ∧
        w.extension.globalLastTradeTimestamp ≤ timestamp w ∧
        (w.extension.methodology.rebalanceInterval <
            timestamp w - w.extension.globalLastTradeTimestamp ∨
          w.extension.methodology.maxLeverageRatio < ratio ∨
          ratio < w.extension.methodology.minLeverageRatio) ∧
        w.extension.twapLeverageRatio = 0 := by
  rw [RebalanceAllowed, h.normalAllowed_iff, validateNonTWAP, require_eq_ok]

end Leveraged

/-! ### Where the answer is right -/

/-- `ripcord` is due, but the exchange is disabled for it. -/
def RipcordDisabled (w : StrategyWorld μ) (exchangeName : String) (ratio : Nat) : Prop :=
  w.extension.incentive.incentivizedLeverageRatio ≤ ratio ∧
    (w.extension.exchangeSettings exchangeName).exchangeLastTradeTimestamp +
      w.extension.incentive.incentivizedTwapCooldownPeriod < timestamp w ∧
    (w.extension.exchangeSettings exchangeName).incentivizedTwapMaxTradeSize = 0

/-- A rebalance is in progress, its cooldown has not elapsed, and the ratio is out of bounds. -/
def IterateEarly (w : StrategyWorld μ) (exchangeName : String) (ratio : Nat) : Prop :=
  ratio < w.extension.incentive.incentivizedLeverageRatio ∧ 0 < w.extension.twapLeverageRatio ∧
    (w.extension.exchangeSettings exchangeName).exchangeLastTradeTimestamp ≤ timestamp w ∧
    timestamp w ≤ (w.extension.exchangeSettings exchangeName).exchangeLastTradeTimestamp +
      w.extension.execution.twapCooldownPeriod ∧
    (w.extension.methodology.maxLeverageRatio < ratio ∨
      ratio < w.extension.methodology.minLeverageRatio)

section Answers
variable {action : ActionInfo} {ratio : Nat} {answer : ShouldRebalance}

/-- Where the answer is of the ripcord branch, the keepers' functions may not be called. -/
theorem predicts_ripcord_iff (h : Leveraged w morpho action ratio)
    (hratio : w.extension.incentive.incentivizedLeverageRatio ≤ ratio)
    (hanswer : shouldRebalanceExchange w ratio w.extension.methodology.minLeverageRatio
      w.extension.methodology.maxLeverageRatio exchangeName = .ok answer) :
    Predicts w morpho exchangeName answer ↔ ¬RipcordDisabled w exchangeName ratio := by
  have hiterate : ¬IterateAllowed w morpho exchangeName := by
    rw [h.iterateAllowed_iff]
    omega
  have hrebalance : ¬RebalanceAllowed w morpho exchangeName := by
    rw [h.rebalanceAllowed_iff]
    omega
  simp only [shouldRebalanceExchange, if_pos hratio, bind_eq_ok, pure_eq_ok] at hanswer
  obtain ⟨ready, hready, hanswer⟩ := hanswer
  have hripcord : RipcordAllowed w morpho exchangeName ↔
      0 < (w.extension.exchangeSettings exchangeName).incentivizedTwapMaxTradeSize ∧
        ready < timestamp w := by
    rw [h.ripcordAllowed_iff, hready]
    simp [hratio]
  have hsum := (SafeMath.add_eq_ok.mp hready).2
  rw [RipcordDisabled, hsum]
  by_cases hdue : ready < timestamp w
  · rw [if_pos hdue] at hanswer
    subst hanswer
    constructor
    · intro hpredicts hdisabled
      have := (hripcord.mp (hpredicts.ripcord.mp rfl)).1
      omega
    · intro henabled
      have hallowed := hripcord.mpr ⟨by omega, hdue⟩
      exact ⟨by simp [hallowed], by simp [hiterate], by simp [hrebalance], by simp [hallowed]⟩
  · rw [if_neg hdue] at hanswer
    subst hanswer
    have hnot : ¬RipcordAllowed w morpho exchangeName :=
      fun hallowed => hdue (hripcord.mp hallowed).2
    refine iff_of_true ⟨by simp [hnot], by simp [hiterate], by simp [hrebalance], ?_⟩
      fun hall => hdue hall.2.1
    simp [hnot, hiterate, hrebalance]

theorem predicts_iterate_iff (h : Leveraged w morpho action ratio)
    (hsize : 0 < (w.extension.exchangeSettings exchangeName).twapMaxTradeSize)
    (hratio : ¬w.extension.incentive.incentivizedLeverageRatio ≤ ratio)
    (htwap : 0 < w.extension.twapLeverageRatio)
    (hanswer : shouldRebalanceExchange w ratio w.extension.methodology.minLeverageRatio
      w.extension.methodology.maxLeverageRatio exchangeName = .ok answer) :
    Predicts w morpho exchangeName answer ↔ ¬IterateEarly w exchangeName ratio := by
  have hripcord : ¬RipcordAllowed w morpho exchangeName := by
    rw [h.ripcordAllowed_iff]
    exact fun hall => hratio hall.2.1
  have hrebalance : ¬RebalanceAllowed w morpho exchangeName := by
    rw [h.rebalanceAllowed_iff]
    omega
  simp only [shouldRebalanceExchange, if_neg hratio, if_pos htwap, bind_eq_ok, pure_eq_ok] at hanswer
  obtain ⟨ready, hready, hanswer⟩ := hanswer
  have hsum := (SafeMath.add_eq_ok.mp hready).2
  have hiterate : IterateAllowed w morpho exchangeName ↔ _ := h.iterateAllowed_iff
  rw [IterateEarly, hsum]
  by_cases hdue : ready < timestamp w
  · rw [if_pos hdue] at hanswer
    subst hanswer
    have hallowed : IterateAllowed w morpho exchangeName := by
      rw [hiterate]
      omega
    refine iff_of_true ⟨by simp [hripcord], by simp [hallowed, hripcord], by simp [hrebalance], ?_⟩ ?_
    · simp [hallowed]
    · omega
  · rw [if_neg hdue] at hanswer
    subst hanswer
    constructor
    · intro hpredicts hearly
      have hnot := (hpredicts.none.mp rfl).2.1
      rw [hiterate] at hnot
      omega
    · intro hnot
      have hnotAllowed : ¬IterateAllowed w morpho exchangeName := by
        rw [hiterate]
        omega
      exact ⟨by simp [hripcord], by simp [hnotAllowed], by simp [hrebalance],
        by simp [hripcord, hnotAllowed, hrebalance]⟩

theorem predicts_rebalance (h : Leveraged w morpho action ratio)
    (hsize : 0 < (w.extension.exchangeSettings exchangeName).twapMaxTradeSize)
    (hratio : ¬w.extension.incentive.incentivizedLeverageRatio ≤ ratio)
    (htwap : ¬0 < w.extension.twapLeverageRatio)
    (hanswer : shouldRebalanceExchange w ratio w.extension.methodology.minLeverageRatio
      w.extension.methodology.maxLeverageRatio exchangeName = .ok answer) :
    Predicts w morpho exchangeName answer := by
  have hripcord : ¬RipcordAllowed w morpho exchangeName := by
    rw [h.ripcordAllowed_iff]
    exact fun hall => hratio hall.2.1
  have hiterate : ¬IterateAllowed w morpho exchangeName := by
    rw [h.iterateAllowed_iff]
    omega
  simp only [shouldRebalanceExchange, if_neg hratio, if_neg htwap, bind_eq_ok, SafeMath.sub_eq_ok,
    pure_eq_ok] at hanswer
  obtain ⟨elapsed, ⟨hlast, rfl⟩, hanswer⟩ := hanswer
  have hrebalance : RebalanceAllowed w morpho exchangeName ↔ _ := h.rebalanceAllowed_iff
  split_ifs at hanswer with hdue
  · subst hanswer
    have hallowed : RebalanceAllowed w morpho exchangeName := by
      rw [hrebalance]
      omega
    exact ⟨by simp [hripcord], by simp [hiterate], by simp [hallowed, hiterate, hripcord],
      by simp [hallowed]⟩
  · subst hanswer
    have hnot : ¬RebalanceAllowed w morpho exchangeName := by
      rw [hrebalance]
      omega
    exact ⟨by simp [hripcord], by simp [hiterate], by simp [hnot],
      by simp [hripcord, hiterate, hnot]⟩

end Answers

/-- **What keepers are told.** For an enabled exchange the answer, where there is one, names the
function that may be called exactly where `ripcord` is not due on an exchange disabled for it, and
the ratio is not out of bounds before the cooldown of a rebalance in progress has elapsed. -/
theorem predicts_iff {action : ActionInfo} {ratio : Nat} {names : List String}
    {answers : List ShouldRebalance} {answer : ShouldRebalance}
    (h : Leveraged w morpho action ratio)
    (hanswers : shouldRebalance w morpho = .ok (names, answers))
    (hanswer : (exchangeName, answer) ∈ names.zip answers)
    (hexchange : validateExchangeSettings (w.extension.exchangeSettings exchangeName) = .ok ()) :
    Predicts w morpho exchangeName answer ↔
      ¬RipcordDisabled w exchangeName ratio ∧ ¬IterateEarly w exchangeName ratio := by
  have hsize : 0 < (w.extension.exchangeSettings exchangeName).twapMaxTradeSize :=
    Nat.pos_of_ne_zero (validateExchangeSettings_eq_ok.mp hexchange)
  simp only [shouldRebalance, h.getCurrentLeverageRatio, ok_bind, shouldRebalanceWithin, bind_eq_ok,
    pure_eq_ok, Prod.mk.injEq, mapM_eq_ok] at hanswers
  obtain ⟨_, hall, rfl, rfl⟩ := hanswers
  have hone := (List.forall₂_iff_zip.mp hall).2 hanswer
  by_cases hratio : w.extension.incentive.incentivizedLeverageRatio ≤ ratio
  · have hearly : ¬IterateEarly w exchangeName ratio := fun hearly => by
      have := hearly.1
      omega
    rw [predicts_ripcord_iff h hratio hone]
    exact ⟨fun henabled => ⟨henabled, hearly⟩, And.left⟩
  · have hdisabled : ¬RipcordDisabled w exchangeName ratio := fun hdisabled => hratio hdisabled.1
    by_cases htwap : 0 < w.extension.twapLeverageRatio
    · rw [predicts_iterate_iff h hsize hratio htwap hone]
      exact ⟨fun hearly => ⟨hdisabled, hearly⟩, And.right⟩
    · exact iff_of_true (predicts_rebalance h hsize hratio htwap hone)
        ⟨hdisabled, fun hearly => htwap hearly.2.1⟩

/-! A strategy with two exchanges, one of them disabled for `ripcord`, where collateral and borrow
asset are worth the same. -/

def exampleMethodology : MethodologySettings :=
  ⟨2 * 10 ^ 18, 17 * 10 ^ 17, 23 * 10 ^ 17, 5 * 10 ^ 16, 86400⟩

def exampleExecution : ExecutionSettings := ⟨10 ^ 16, 2 * 10 ^ 16, 3000⟩

def exampleIncentive : IncentiveSettings := ⟨10 ^ 18, 26 * 10 ^ 17, 5 * 10 ^ 16, 900⟩

def exampleDeploy : Result StrategyExtension :=
  deploy 40 ⟨50, 1, 2⟩ exampleMethodology exampleExecution exampleIncentive ["exchange", "other"]
    [⟨10 ^ 23, 0, 10 ^ 24, [], []⟩, ⟨10 ^ 23, 0, 0, [], []⟩]

/-- The manager at 9, with its one extension at 40. -/
def exampleManager : Result BaseManager := do
  let m ← (BaseManager.construct 9 100 10 11).authorizeInitialization 11
  m.addExtension 10 (fun _ => 9) 40

/-- A time, a rebalance in progress or not, collateral and debt of a SetToken of a million shares. -/
def exampleStrategy (time twap collateral debt : Nat) : Result (StrategyWorld Ledger) := do
  let x ← exampleDeploy
  let m ← exampleManager
  let w ← MorphoLeverageModule.exampleWorld (10 ^ 24) (10 ^ 18) 0 0
  let ledger : Ledger :=
    { markets := fun _ => ⟨10 ^ 30, 10 ^ 36, 10 ^ 29, 10 ^ 35, 1, 0⟩
      positions := fun _ _ => ⟨0, debt * 10 ^ 6, collateral⟩ }
  let w := MorphoLeverageModule.withOthers w
    { w.rest.others with morpho := ledger, timestamp := time }
  pure ⟨{ x with twapLeverageRatio := twap }, m, w, fun _ => pure (10 ^ 36), fun _ => 10 ^ 18⟩

theorem predicts_iff_example : ∃ w, exampleStrategy 5000 0 (3 * 10 ^ 24) (2 * 10 ^ 24) = .ok w ∧
    shouldRebalance w reference = .ok (["exchange", "other"], [.ripcord, .ripcord]) ∧
    Predicts w reference "exchange" .ripcord := by
  have h : (do
      let w ← exampleStrategy 5000 0 (3 * 10 ^ 24) (2 * 10 ^ 24)
      let info ← getAndValidateLeveragedInfo w reference 0 1 "exchange"
      let answer ← shouldRebalance w reference
      require (answer = (["exchange", "other"], [ShouldRebalance.ripcord, .ripcord]) ∧
        w.extension.exchangeSettings "exchange" = ExchangeSettings.mk (10 ^ 23) 0 (10 ^ 24) [] [] ∧
        w.extension.incentive.incentivizedLeverageRatio ≤ info.currentLeverageRatio) "") =
      .ok () := by
    decide +kernel
  simp only [bind_eq_ok, require_eq_ok] at h
  obtain ⟨w, hw, info, hinfo, answer, hanswers, rfl, hsettings, hratio⟩ := h
  obtain ⟨_, hread, hsupply, hcollateral, hdebt, hcurrent, _⟩ :=
    getAndValidateLeveragedInfo_eq_ok.mp hinfo
  refine ⟨w, hw, hanswers, (predicts_iff ⟨hread, hsupply, hcollateral, hdebt, hcurrent⟩ hanswers
    (by simp) (by simp [hsettings])).mpr ⟨fun hdisabled => ?_, fun hearly => ?_⟩⟩
  · have hsize := hdisabled.2.2
    rw [hsettings] at hsize
    cases hsize
  · have := hearly.1
    omega

/-- `ripcord` is announced for an exchange that is disabled for it; and during a rebalance nothing
is announced while `iterateRebalance` may be called already. -/
theorem prediction_wrong :
    (∃ w, exampleStrategy 5000 0 (3 * 10 ^ 24) (2 * 10 ^ 24) = .ok w ∧
      shouldRebalance w reference = .ok (["exchange", "other"], [.ripcord, .ripcord]) ∧
      ¬RipcordAllowed w reference "other") ∧
    ∃ w, exampleStrategy 1000 (2 * 10 ^ 18) (5 * 10 ^ 24) (3 * 10 ^ 24) = .ok w ∧
      shouldRebalance w reference = .ok (["exchange", "other"], [.none, .none]) ∧
      IterateAllowed w reference "exchange" := by
  constructor
  · have h : (do
        let w ← exampleStrategy 5000 0 (3 * 10 ^ 24) (2 * 10 ^ 24)
        let answer ← shouldRebalance w reference
        require (answer = (["exchange", "other"], [ShouldRebalance.ripcord, .ripcord]) ∧
          (w.extension.exchangeSettings "other").incentivizedTwapMaxTradeSize = 0) "") = .ok () := by
      decide +kernel
    simp only [bind_eq_ok, require_eq_ok] at h
    obtain ⟨w, hw, answer, hanswers, rfl, hsize⟩ := h
    refine ⟨w, hw, hanswers, ?_⟩
    rintro ⟨info, hinfo, _⟩
    have hpos := (getAndValidateLeveragedInfo_eq_ok.mp hinfo).1
    omega
  · have h : (do
        let w ← exampleStrategy 1000 (2 * 10 ^ 18) (5 * 10 ^ 24) (3 * 10 ^ 24)
        let answer ← shouldRebalance w reference
        require (answer = (["exchange", "other"], [ShouldRebalance.none, .none])) ""
        let info ← getAndValidateLeveragedInfo w reference w.extension.execution.slippageTolerance
          (w.extension.exchangeSettings "exchange").twapMaxTradeSize "exchange"
        validateNormalRebalance w info w.extension.execution.twapCooldownPeriod
          (w.extension.exchangeSettings "exchange").exchangeLastTradeTimestamp
        validateTWAP w) = .ok () := by
      decide +kernel
    simp only [bind_eq_ok, require_eq_ok] at h
    obtain ⟨w, hw, answer, hanswers, ⟨⟩, rfl, info, hinfo, ⟨⟩, hnormal, htwap⟩ := h
    exact ⟨w, hw, hanswers, info, hinfo, hnormal, htwap⟩

end MorphoLeverageStrategyExtension

end IndexProtocol
