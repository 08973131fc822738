import IndexProtocol.Strategy.Emergency
import Mathlib.Algebra.Order.Field.Rat
import Mathlib.Tactic.FieldSimp
import Mathlib.Tactic.Positivity

/-! What a rebalance aims at, and how far one trade goes.

The new ratio is a weighted mean of the current and the target ratio, kept within
the bounds; its two parts are rounded down, so it may fall one unit short. A trade
is a part of the collateral, rounded down as often as it is computed, and traded
at the price it was valued at it stops before the ratio that it was computed for. -/
namespace IndexProtocol
open Evm PreciseUnitMath

namespace MorphoLeverageStrategyExtension
variable {methodology : MethodologySettings} {execution : ExecutionSettings}
  {incentive : IncentiveSettings}

/-! ### The new ratio -/

/-- The mean of the target and a ratio, at the recentering speed. -/
def recentered (methodology : MethodologySettings) (ratio : Nat) : Nat :=
  methodology.targetLeverageRatio * methodology.recenteringSpeed / preciseUnit +
    (preciseUnit - methodology.recenteringSpeed) * ratio / preciseUnit

theorem recentered_lt {ratio : Nat}
    (htarget : methodology.targetLeverageRatio * methodology.recenteringSpeed < uintBound)
    (hratio : (preciseUnit - methodology.recenteringSpeed) * ratio < uintBound) :
    recentered methodology ratio < uintBound := by
  have hhalf (a : Nat) : a / preciseUnit ≤ a / 2 := Nat.div_le_div_left (by decide) Nat.two_pos
  have hfirst := hhalf (methodology.targetLeverageRatio * methodology.recenteringSpeed)
  have hsecond := hhalf ((preciseUnit - methodology.recenteringSpeed) * ratio)
  unfold recentered
  omega

theorem calculateNewLeverageRatio_eq_ok (hspeed : methodology.recenteringSpeed ≤ preciseUnit)
    {current new : Nat} :
    calculateNewLeverageRatio methodology current = .ok new ↔
      methodology.targetLeverageRatio * methodology.recenteringSpeed < uintBound ∧
        (preciseUnit - methodology.recenteringSpeed) * current < uintBound ∧
        max methodology.minLeverageRatio
          (min (recentered methodology current) methodology.maxLeverageRatio) = new := by
  simp only [calculateNewLeverageRatio, bind_eq_ok, preciseMul_eq_ok, SafeMath.sub_eq_ok,
    SafeMath.add_eq_ok, pure_eq_ok]
  constructor
  · rintro ⟨_, ⟨htarget, ha⟩, _, ⟨_, hrest⟩, _, ⟨hcurrent, hb⟩, _, ⟨_, hc⟩, hnew⟩
    subst ha hrest hb hc
    exact ⟨htarget, hcurrent, hnew⟩
  · rintro ⟨htarget, hcurrent, hnew⟩
    exact ⟨_, ⟨htarget, rfl⟩, _, ⟨hspeed, rfl⟩, _, ⟨hcurrent, rfl⟩, _,
      ⟨recentered_lt htarget hcurrent, rfl⟩, hnew⟩

theorem recentered_mono (methodology : MethodologySettings) {ratio ratio' : Nat} (h : ratio ≤ ratio') :
    recentered methodology ratio ≤ recentered methodology ratio' :=
  Nat.add_le_add_left (Nat.div_le_div_right (Nat.mul_le_mul_left _ h)) _

/-- **The recentring theorem.** Under settings that pass the checks, the new ratio is computed
unless a product overflows, is within the bounds, moves with the current ratio, and stays between
the current ratio and the target, but for one unit. -/
theorem newLeverageRatio_between
    (hvalid : validateNonExchangeSettings methodology execution incentive = .ok ()) :
    (∀ current,
      methodology.targetLeverageRatio * methodology.recenteringSpeed < uintBound →
      (preciseUnit - methodology.recenteringSpeed) * current < uintBound →
      ∃ new, calculateNewLeverageRatio methodology current = .ok new) ∧
    (∀ current new, calculateNewLeverageRatio methodology current = .ok new →
      methodology.minLeverageRatio ≤ new ∧ new ≤ methodology.maxLeverageRatio ∧
      (methodology.targetLeverageRatio ≤ current →
        methodology.targetLeverageRatio - 1 ≤ new ∧
          new ≤ max current methodology.minLeverageRatio) ∧
      (current ≤ methodology.targetLeverageRatio →
        current - 1 ≤ new ∧ new ≤ methodology.targetLeverageRatio)) ∧
    ∀ current current' new new', current ≤ current' →
      calculateNewLeverageRatio methodology current = .ok new →
      calculateNewLeverageRatio methodology current' = .ok new' → new ≤ new' := by
  have hsettings := validateNonExchangeSettings_eq_ok.mp hvalid
  have hmin := hsettings.min_le_target
  have hmax := hsettings.target_le_max
  refine ⟨fun current htarget hcurrent => ?_, fun current new h => ?_,
    fun current current' new new' hle h h' => ?_⟩
  · exact ⟨_, (calculateNewLeverageRatio_eq_ok hsettings.speed_le).mpr ⟨htarget, hcurrent, rfl⟩⟩
  · obtain ⟨_, _, hnew⟩ := (calculateNewLeverageRatio_eq_ok hsettings.speed_le).mp h
    refine ⟨by omega, by omega, fun habove => ?_, fun hbelow => ?_⟩
    · have hlow : methodology.targetLeverageRatio ≤ recentered methodology current + 1 :=
        Rounding.le_mean_succ preciseUnit_pos hsettings.speed_le le_rfl habove
      have hhigh : recentered methodology current ≤ current :=
        Rounding.mean_le preciseUnit_pos hsettings.speed_le habove le_rfl
      omega
    · have hlow : current ≤ recentered methodology current + 1 :=
        Rounding.le_mean_succ preciseUnit_pos hsettings.speed_le hbelow le_rfl
      have hhigh : recentered methodology current ≤ methodology.targetLeverageRatio :=
        Rounding.mean_le preciseUnit_pos hsettings.speed_le le_rfl hbelow
      omega
  · obtain ⟨_, _, hnew⟩ := (calculateNewLeverageRatio_eq_ok hsettings.speed_le).mp h
    obtain ⟨_, _, hnew'⟩ := (calculateNewLeverageRatio_eq_ok hsettings.speed_le).mp h'
    have hmono := recentered_mono methodology hle
    omega

theorem newLeverageRatio_between_example :
    ∃ new, calculateNewLeverageRatio exampleMethodology (22 * 10 ^ 17) = .ok new ∧
      exampleMethodology.targetLeverageRatio - 1 ≤ new ∧ new ≤ 22 * 10 ^ 17 := by
  have h : validateNonExchangeSettings exampleMethodology exampleExecution exampleIncentive =
      .ok () := by decide +kernel
  obtain ⟨hreturns, hbetween, _⟩ := newLeverageRatio_between h
  obtain ⟨new, hnew⟩ := hreturns (22 * 10 ^ 17) (by decide +kernel) (by decide +kernel)
  obtain ⟨_, _, habove, _⟩ := hbetween _ _ hnew
  obtain ⟨hlow, hhigh⟩ := habove (by decide)
  exact ⟨new, hnew, hlow, hhigh.trans (by decide)⟩

/-! ### A chunk -/

/-- Leverage in precise units, not rounded. -/
def exactLeverageRatio (value debt : ℚ) : ℚ := value / (value - debt) * preciseUnit

/-- Collateral at the price that all of it was valued at, in borrow asset. -/
def atValuation (action : ActionInfo) (collateral : ℚ) : ℚ :=
  collateral * (action.collateralValue / action.collateralBalance)

variable {action : ActionInfo} {leverageInfo : LeverageInfo} {newLeverageRatio chunk total : Nat}

/-- The whole trade, of which a chunk is a part, is rounded down twice. -/
theorem total_mul_le {difference current balance total : Nat}
    (h : difference * preciseUnit / current * balance / preciseUnit = total) :
    total * current ≤ difference * balance := by
  have hfraction := Nat.div_mul_le_self (difference * preciseUnit) current
  have htotal := Nat.div_mul_le_self (difference * preciseUnit / current * balance) preciseUnit
  rw [h] at htotal
  refine Nat.le_of_mul_le_mul_right ?_ preciseUnit_pos
  calc total * current * preciseUnit = total * preciseUnit * current := Nat.mul_right_comm _ _ _
    _ ≤ difference * preciseUnit / current * balance * current := Nat.mul_le_mul_right _ htotal
    _ = difference * preciseUnit / current * current * balance := Nat.mul_right_comm _ _ _
    _ ≤ difference * preciseUnit * balance := Nat.mul_le_mul_right _ hfraction
    _ = difference * balance * preciseUnit := Nat.mul_right_comm _ _ _

/-- A chunk is its part of the collateral at most, and for a lever its debt fits the limit. -/
theorem chunk_bounds (hpriced : Priced action) (haction : leverageInfo.action = action)
    {isLever : Bool}
    (h : calculateChunkRebalanceNotional execution leverageInfo newLeverageRatio isLever =
      .ok (chunk, total)) :
    (isLever = false → newLeverageRatio ≤ leverageInfo.currentLeverageRatio ∧
      chunk * leverageInfo.currentLeverageRatio ≤
        (leverageInfo.currentLeverageRatio - newLeverageRatio) * action.collateralBalance) ∧
    (isLever = true → leverageInfo.currentLeverageRatio ≤ newLeverageRatio ∧
      chunk * leverageInfo.currentLeverageRatio ≤
        (newLeverageRatio - leverageInfo.currentLeverageRatio) * action.collateralBalance ∧
      action.borrowBalance ≤ limitOf execution action ∧
      chunk * action.collateralPrice ≤
        (limitOf execution action - action.borrowBalance) * morphoOraclePriceScale) := by
  have hle := (chunk_le h).1
  simp only [calculateChunkRebalanceNotional, bind_eq_ok, pure_eq_ok, Prod.mk.injEq,
    preciseDiv_eq_ok, preciseMul_eq_ok, haction] at h
  obtain ⟨difference, hdifference, _, ⟨_, _, rfl⟩, _, ⟨_, htotal⟩, maxBorrow, hmaxBorrow, hchunk,
    rfl⟩ := h
  have hpart := total_mul_le htotal
  have hchunkPart := (Nat.mul_le_mul_right leverageInfo.currentLeverageRatio hle).trans hpart
  cases isLever with
  | false =>
    refine ⟨fun _ => ?_, fun h => absurd h Bool.false_ne_true⟩
    simp only [Bool.false_eq_true, if_false, SafeMath.sub_eq_ok] at hdifference
    obtain ⟨hbelow, rfl⟩ := hdifference
    exact ⟨hbelow, hchunkPart⟩
  | true =>
    refine ⟨fun h => absurd h.symm Bool.false_ne_true, fun _ => ?_⟩
    simp only [if_true, SafeMath.sub_eq_ok] at hdifference
    obtain ⟨habove, rfl⟩ := hdifference
    simp only [calculateMaxBorrowCollateral, bind_eq_ok, netBorrowLimit_eq_ok hpriced, if_true,
      SafeMath.sub_eq_ok, SafeMath.mul_eq_ok, SafeMath.div_eq_ok] at hmaxBorrow
    obtain ⟨_, ⟨_, _, _, rfl⟩, _, ⟨hwithin, rfl⟩, _, ⟨_, rfl⟩, _, hmax⟩ := hmaxBorrow
    refine ⟨habove, hchunkPart, hwithin, ?_⟩
    have hchunkMax : chunk ≤ maxBorrow := by omega
    calc chunk * action.collateralPrice ≤ maxBorrow * action.collateralPrice :=
          Nat.mul_le_mul_right _ hchunkMax
      _ ≤ _ := by
          rw [← hmax]
          exact Nat.div_mul_le_self _ _

/-- The computed ratio is the exact one rounded down. -/
theorem currentLeverageRatio_bounds {value debt ratio : Nat}
    (h : calculateCurrentLeverageRatio value debt = .ok ratio) :
    (debt : ℚ) < value ∧ (ratio : ℚ) * (value - debt) ≤ value * preciseUnit ∧
      (value : ℚ) * preciseUnit < (ratio + 1) * (value - debt) := by
  obtain ⟨hlt, _, hratio⟩ := calculateCurrentLeverageRatio_eq_ok.mp h
  have hlow := Nat.div_mul_le_self (value * preciseUnit) (value - debt)
  have hhigh := Rounding.lt_floor_succ_mul (value * preciseUnit) (Nat.sub_pos_of_lt hlt)
  rw [hratio] at hlow hhigh
  have hequity : ((value - debt : Nat) : ℚ) = value - debt := Nat.cast_sub hlt.le
  refine ⟨Nat.cast_lt.mpr hlt, ?_, ?_⟩
  · rw [← hequity]
    exact_mod_cast hlow
  · rw [← hequity]
    exact_mod_cast hhigh

/-- Collateral for debt at the valuation leaves the equity as it is. -/
theorem exactLeverageRatio_traded (value debt traded : ℚ) :
    exactLeverageRatio (value + traded) (debt + traded) =
      (value + traded) / (value - debt) * preciseUnit := by
  rw [exactLeverageRatio, add_sub_add_right_eq_sub]

section Traded
variable {value debt balance ratio new traded : ℚ}

/-- Sold down to at least its part, collateral leaves at least the new ratio. -/
theorem le_ratio_delevered (hequity : debt < value) (hbalance : 0 < balance) (hratio : 0 < ratio)
    (hnew : 0 ≤ new)
    (hfloor : ratio * (value - debt) ≤ value * preciseUnit)
    (hpart : traded * ratio ≤ (ratio - new) * balance) :
    new ≤ (value + -(traded * (value / balance))) / (value - debt) * preciseUnit := by
  have hequity' : 0 < value - debt := sub_pos.mpr hequity
  have hkept : new * balance ≤ (balance - traded) * ratio := by linarith
  have hkept_nonneg : 0 ≤ balance - traded :=
    nonneg_of_mul_nonneg_left ((mul_nonneg hnew hbalance.le).trans hkept) hratio
  have hrest : (value + -(traded * (value / balance))) = value * (balance - traded) / balance := by
    field_simp
    ring
  rw [hrest, div_div, div_mul_eq_mul_div, le_div_iff₀ (mul_pos hbalance hequity')]
  calc new * (balance * (value - debt)) = new * balance * (value - debt) := (mul_assoc _ _ _).symm
    _ ≤ (balance - traded) * ratio * (value - debt) :=
      mul_le_mul_of_nonneg_right hkept hequity'.le
    _ = (balance - traded) * (ratio * (value - debt)) := mul_assoc _ _ _
    _ ≤ (balance - traded) * (value * preciseUnit) := mul_le_mul_of_nonneg_left hfloor hkept_nonneg
    _ = value * (balance - traded) * preciseUnit := by ring

/-- Bought up to at most its part, collateral exceeds the new ratio by less than rounding. -/
theorem ratio_levered_lt (hequity : debt < value) (hbalance : 0 < balance) (hratio : 0 < ratio)
    (htraded : 0 ≤ traded) (hceil : value * preciseUnit < (ratio + 1) * (value - debt))
    (hpart : traded * ratio ≤ (new - ratio) * balance) :
    (value + traded * (value / balance)) / (value - debt) * preciseUnit <
      new * (1 + 1 / ratio) := by
  have hequity' : 0 < value - debt := sub_pos.mpr hequity
  have hgrown : (balance + traded) * ratio ≤ new * balance := by linarith
  have hsum : value + traded * (value / balance) = value * (balance + traded) / balance := by
    field_simp
  have hbound : new * (1 + 1 / ratio) = new * (ratio + 1) / ratio := by
    field_simp
  rw [hsum, hbound, div_div, div_mul_eq_mul_div, div_lt_div_iff₀ (mul_pos hbalance hequity') hratio]
  have hpos : 0 < (balance + traded) * ratio := mul_pos (by linarith) hratio
  calc value * (balance + traded) * preciseUnit * ratio
      = value * preciseUnit * ((balance + traded) * ratio) := by ring
    _ < (ratio + 1) * (value - debt) * ((balance + traded) * ratio) :=
      mul_lt_mul_of_pos_right hceil hpos
    _ ≤ (ratio + 1) * (value - debt) * (new * balance) :=
      mul_le_mul_of_nonneg_left hgrown (mul_pos (by linarith) hequity').le
    _ = new * (ratio + 1) * (balance * (value - debt)) := by ring

end Traded

theorem currentLeverageRatio_pos {value debt ratio : Nat}
    (h : calculateCurrentLeverageRatio value debt = .ok ratio) : 0 < ratio := by
  obtain ⟨hlt, _, rfl⟩ := calculateCurrentLeverageRatio_eq_ok.mp h
  refine Nat.div_pos ?_ (Nat.sub_pos_of_lt hlt)
  exact (Nat.sub_le _ _).trans (Nat.le_mul_of_pos_right _ preciseUnit_pos)

/-- Collateral that was valued above the debt is there. -/
theorem collateralBalance_pos (hpriced : Priced action)
    (h : action.borrowBalance < action.collateralValue) : 0 < action.collateralBalance := by
  obtain ⟨_, hvalue⟩ := valueAt_eq_ok.mp hpriced
  refine Nat.pos_of_ne_zero fun hzero => ?_
  rw [hzero, Nat.zero_mul, Nat.zero_div] at hvalue
  omega

/-- In borrow asset, a lever's chunk is what is left to the limit. -/
theorem chunk_value_le (hpriced : Priced action)
    (hchunk : chunk * action.collateralPrice ≤
      (limitOf execution action - action.borrowBalance) * morphoOraclePriceScale) :
    chunk * action.collateralValue ≤
      (limitOf execution action - action.borrowBalance) * action.collateralBalance := by
  have hscale : 0 < morphoOraclePriceScale := by decide
  obtain ⟨_, hvalue⟩ := valueAt_eq_ok.mp hpriced
  have hvalued := Nat.div_mul_le_self (action.collateralBalance * action.collateralPrice)
    morphoOraclePriceScale
  rw [hvalue] at hvalued
  refine Nat.le_of_mul_le_mul_right ?_ hscale
  calc chunk * action.collateralValue * morphoOraclePriceScale
      = chunk * (action.collateralValue * morphoOraclePriceScale) := Nat.mul_assoc _ _ _
    _ ≤ chunk * (action.collateralBalance * action.collateralPrice) :=
      Nat.mul_le_mul_left _ hvalued
    _ = chunk * action.collateralPrice * action.collateralBalance := by ring
    _ ≤ (limitOf execution action - action.borrowBalance) * morphoOraclePriceScale *
        action.collateralBalance := Nat.mul_le_mul_right _ hchunk
    _ = _ := Nat.mul_right_comm _ _ _

/-- The limit is rounded down twice. -/
theorem limitOf_mul_le : limitOf execution action * preciseUnit * preciseUnit ≤
    action.collateralValue * action.lltv *
      (preciseUnit - execution.unutilizedLeveragePercentage) := by
  have hfirst := Nat.div_mul_le_self (action.collateralValue * action.lltv) preciseUnit
  have hsecond := Nat.div_mul_le_self (action.collateralValue * action.lltv / preciseUnit *
    (preciseUnit - execution.unutilizedLeveragePercentage)) preciseUnit
  calc limitOf execution action * preciseUnit * preciseUnit
      ≤ action.collateralValue * action.lltv / preciseUnit *
          (preciseUnit - execution.unutilizedLeveragePercentage) * preciseUnit :=
        Nat.mul_le_mul_right _ hsecond
    _ = action.collateralValue * action.lltv / preciseUnit * preciseUnit *
          (preciseUnit - execution.unutilizedLeveragePercentage) := Nat.mul_right_comm _ _ _
    _ ≤ _ := Nat.mul_le_mul_right _ hfirst

/-- A lever's debt, at the valuation, is within the limit that the settings leave. -/
theorem debt_levered_le (hpriced : Priced action)
    (hunutilized : execution.unutilizedLeveragePercentage ≤ preciseUnit)
    (hbalance : 0 < action.collateralBalance)
    (hwithin : action.borrowBalance ≤ limitOf execution action)
    (hchunk : chunk * action.collateralPrice ≤
      (limitOf execution action - action.borrowBalance) * morphoOraclePriceScale) :
    (action.borrowBalance : ℚ) + atValuation action chunk ≤
      action.collateralValue * (action.lltv / preciseUnit) *
        (1 - execution.unutilizedLeveragePercentage / preciseUnit) := by
  have hunit : (0 : ℚ) < preciseUnit := by exact_mod_cast preciseUnit_pos
  have hbalance' : (0 : ℚ) < action.collateralBalance := Nat.cast_pos.mpr hbalance
  have hleft : (chunk : ℚ) * action.collateralValue ≤
      ((limitOf execution action : ℚ) - action.borrowBalance) * action.collateralBalance := by
    rw [← Nat.cast_sub hwithin]
    exact_mod_cast chunk_value_le hpriced hchunk
  have hlimit : (limitOf execution action : ℚ) * preciseUnit * preciseUnit ≤
      action.collateralValue * action.lltv *
        (preciseUnit - execution.unutilizedLeveragePercentage) := by
    rw [← Nat.cast_sub hunutilized]
    exact_mod_cast limitOf_mul_le
  have hdebt : (action.borrowBalance : ℚ) + atValuation action chunk ≤
      limitOf execution action := by
    rw [atValuation, ← mul_div_assoc, ← le_sub_iff_add_le', div_le_iff₀ hbalance']
    exact hleft
  have hright : (action.collateralValue : ℚ) * (action.lltv / preciseUnit) *
      (1 - execution.unutilizedLeveragePercentage / preciseUnit) =
      action.collateralValue * action.lltv *
        (preciseUnit - execution.unutilizedLeveragePercentage) / (preciseUnit * preciseUnit) := by
    field_simp
  refine hdebt.trans ?_
  rw [hright, le_div_iff₀ (mul_pos hunit hunit), ← mul_assoc]
  exact hlimit

/-- **The sizing theorem.** Traded at the price of the valuation, a chunk of a delever leaves at
least the ratio it was computed for, and less than there was; a chunk of a lever stays below that
ratio but for the rounding of the current one, and its debt within what the settings leave of the
market's limit. -/
theorem chunk_never_overshoots
    (hvalid : validateNonExchangeSettings methodology execution incentive = .ok ())
    (haction : leverageInfo.action = action) (hpriced : Priced action)
    (hratio : calculateCurrentLeverageRatio action.collateralValue action.borrowBalance =
      .ok leverageInfo.currentLeverageRatio) :
    (∀ newLeverageRatio chunk total, newLeverageRatio < leverageInfo.currentLeverageRatio →
      calculateChunkRebalanceNotional execution leverageInfo newLeverageRatio false =
        .ok (chunk, total) →
      (newLeverageRatio : ℚ) ≤ exactLeverageRatio
          (action.collateralValue - atValuation action chunk)
          (action.borrowBalance - atValuation action chunk) ∧
        (0 < chunk → exactLeverageRatio (action.collateralValue - atValuation action chunk)
            (action.borrowBalance - atValuation action chunk) <
          exactLeverageRatio action.collateralValue action.borrowBalance)) ∧
    ∀ newLeverageRatio chunk total, leverageInfo.currentLeverageRatio ≤ newLeverageRatio →
      calculateChunkRebalanceNotional execution leverageInfo newLeverageRatio true =
        .ok (chunk, total) →
      exactLeverageRatio (action.collateralValue + atValuation action chunk)
          (action.borrowBalance + atValuation action chunk) <
        newLeverageRatio * (1 + 1 / (leverageInfo.currentLeverageRatio : ℚ)) ∧
      (action.borrowBalance : ℚ) + atValuation action chunk ≤
        action.collateralValue * (action.lltv / preciseUnit) *
          (1 - execution.unutilizedLeveragePercentage / preciseUnit) := by
  obtain ⟨hequity, hfloor, hceil⟩ := currentLeverageRatio_bounds hratio
  have hbalance := collateralBalance_pos hpriced (Nat.cast_lt.mp hequity)
  have hbalance' : (0 : ℚ) < action.collateralBalance := Nat.cast_pos.mpr hbalance
  have hpos : (0 : ℚ) < leverageInfo.currentLeverageRatio :=
    Nat.cast_pos.mpr (currentLeverageRatio_pos hratio)
  refine ⟨fun newLeverageRatio chunk total _ h => ?_, fun newLeverageRatio chunk total _ h => ?_⟩
  · obtain ⟨hbelow, hpart⟩ := (chunk_bounds hpriced haction h).1 rfl
    have hpart' : (chunk : ℚ) * leverageInfo.currentLeverageRatio ≤
        ((leverageInfo.currentLeverageRatio : ℚ) - newLeverageRatio) *
          action.collateralBalance := by
      rw [← Nat.cast_sub hbelow]
      exact_mod_cast hpart
    rw [sub_eq_add_neg, sub_eq_add_neg, exactLeverageRatio_traded]
    refine ⟨le_ratio_delevered hequity hbalance' hpos (Nat.cast_nonneg _) hfloor hpart',
      fun hchunk => ?_⟩
    have hvalue : (0 : ℚ) < action.collateralValue := (Nat.cast_nonneg _).trans_lt hequity
    have hsold : 0 < atValuation action chunk :=
      mul_pos (Nat.cast_pos.mpr hchunk) (div_pos hvalue hbalance')
    have hunit : (0 : ℚ) < preciseUnit := by exact_mod_cast preciseUnit_pos
    refine mul_lt_mul_of_pos_right ?_ hunit
    exact div_lt_div_of_pos_right (by linarith) (sub_pos.mpr hequity)
  · obtain ⟨habove, hpart, hwithin, hborrowed⟩ := (chunk_bounds hpriced haction h).2 rfl
    have hpart' : (chunk : ℚ) * leverageInfo.currentLeverageRatio ≤
        ((newLeverageRatio : ℚ) - leverageInfo.currentLeverageRatio) *
          action.collateralBalance := by
      rw [← Nat.cast_sub habove]
      exact_mod_cast hpart
    rw [exactLeverageRatio_traded]
    have hunutilized := (validateNonExchangeSettings_eq_ok.mp hvalid).unutilized_le
    exact ⟨ratio_levered_lt hequity hbalance' hpos (Nat.cast_nonneg _) hceil hpart',
      debt_levered_le hpriced hunutilized hbalance hwithin hborrowed⟩

/-- Leverage of 2.5, collateral and borrow asset worth the same. -/
def exampleInfo : LeverageInfo where
  action := ⟨2 * 10 ^ 18, 12 * 10 ^ 17, 2 * 10 ^ 18, 10 ^ 36, 10 ^ 18, 8 * 10 ^ 17⟩
  currentLeverageRatio := 25 * 10 ^ 17
  slippageTolerance := 2 * 10 ^ 16
  twapMaxTradeSize := 10 ^ 23
  exchangeName := "exchange"

theorem chunk_never_overshoots_example :
    ((24 * 10 ^ 17 : Nat) : ℚ) ≤ exactLeverageRatio
        ((2 * 10 ^ 18 : Nat) - atValuation exampleInfo.action (8 * 10 ^ 16 : Nat))
        ((12 * 10 ^ 17 : Nat) - atValuation exampleInfo.action (8 * 10 ^ 16 : Nat)) ∧
      exactLeverageRatio ((2 * 10 ^ 18 : Nat) + atValuation exampleInfo.action (8 * 10 ^ 16 : Nat))
          ((12 * 10 ^ 17 : Nat) + atValuation exampleInfo.action (8 * 10 ^ 16 : Nat)) <
        (26 * 10 ^ 17 : Nat) * (1 + 1 / ((25 * 10 ^ 17 : Nat) : ℚ)) := by
  have hvalid : validateNonExchangeSettings exampleMethodology exampleExecution exampleIncentive =
      .ok () := by decide +kernel
  have hpriced : Priced exampleInfo.action := by
    unfold Priced
    decide +kernel
  have hratio : calculateCurrentLeverageRatio (2 * 10 ^ 18) (12 * 10 ^ 17) = .ok (25 * 10 ^ 17) := by
    decide +kernel
  have hdelever : calculateChunkRebalanceNotional exampleExecution exampleInfo (24 * 10 ^ 17)
      false = .ok (8 * 10 ^ 16, 8 * 10 ^ 16) := by decide +kernel
  have hlever : calculateChunkRebalanceNotional exampleExecution exampleInfo (26 * 10 ^ 17)
      true = .ok (8 * 10 ^ 16, 8 * 10 ^ 16) := by decide +kernel
  obtain ⟨hdown, hup⟩ := chunk_never_overshoots hvalid rfl hpriced hratio
  exact ⟨(hdown _ _ _ (by decide) hdelever).1, (hup _ _ _ (by decide) hlever).1⟩

end MorphoLeverageStrategyExtension

end IndexProtocol
