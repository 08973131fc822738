import IndexProtocol.Leverage.Hooks

/-! What Morpho accepts of a redemption.

Morpho rejects amounts of zero and takes shares and collateral off a position by
checked subtraction. A redemption asks for amounts that come from the synced
units, and those are rounded against the SetToken: collateral is never
withdrawn beyond the position, but for dust the debt repaid is zero, and for the
last holder it can be more than what is owed. -/
namespace IndexProtocol
open Evm PreciseUnitMath ModuleBase Morpho

namespace MorphoLeverageModule
variable {μ : Type} {morpho : MorphoBlue μ} {module : Address} {w v : LeverageWorld μ}

/-- Morpho takes the repayment of the assets: it is not nothing, and the shares are there. -/
def Repayable (market : Market) (borrowShares assets : Nat) : Prop :=
  0 < assets ∧
    SharesMath.sharesOf assets market.totalBorrowAssets market.totalBorrowShares ≤ borrowShares

instance (market : Market) (borrowShares assets : Nat) :
    Decidable (Repayable market borrowShares assets) := inferInstanceAs (Decidable (_ ∧ _))

/-- Morpho gives out the collateral: it is not nothing, and it is there. -/
def Withdrawable (collateral assets : Nat) : Prop := 0 < assets ∧ assets ≤ collateral

theorem floor_pos_iff (n : Nat) : 0 < n / preciseUnit ↔ preciseUnit ≤ n := by
  rw [Nat.div_pos_iff]
  exact and_iff_right preciseUnit_pos

/-- The floor of a product is repayable between one unit and what the shares are worth. -/
theorem repayable_iff (market : Market) (borrowShares product : Nat) :
    Repayable market borrowShares (product / preciseUnit) ↔
      preciseUnit ≤ product ∧
        product < (SharesMath.maxAssets borrowShares market.totalBorrowAssets
          market.totalBorrowShares + 1) * preciseUnit := by
  rw [Repayable, floor_pos_iff, SharesMath.sharesOf_le_iff]
  refine and_congr_right fun _ => ?_
  rw [← Nat.lt_succ_iff, Nat.div_lt_iff_lt_mul preciseUnit_pos]

/-- **What Morpho accepts after a sync.** Of a quantity within the supply, the repayment that the
hook asks for is accepted exactly when the debt's unit times the quantity is at least one unit and
less than one more unit than the borrow shares are worth; the withdrawal exactly when the
collateral's unit times the quantity is at least one unit. -/
theorem redemption_acceptable_iff {collateral debt shares quantity : Nat} (market : Market)
    (hwf : w.setToken.WellFormed) (hsupply : 0 < w.setToken.totalSupply)
    (hm : w.setToken.positionMultiplier ≤ preciseUnitInt)
    (hne : (params w).collateralToken ≠ (params w).loanToken)
    (hbalances : getCollateralAndBorrowBalances morpho w (params w) = .ok (collateral, debt, shares))
    (h : sync morpho module w = .ok v) (hle : quantity ≤ w.setToken.totalSupply) :
    let debtUnit := (-v.setToken.externalRealUnit (params w).loanToken module).toNat
    let collateralUnit := (v.setToken.externalRealUnit (params w).collateralToken module).toNat
    (∀ repaid, notionalDebt module v.setToken (params w).loanToken quantity = .ok repaid →
      (Repayable market shares repaid ↔ preciseUnit ≤ debtUnit * quantity ∧
        debtUnit * quantity < (SharesMath.maxAssets shares market.totalBorrowAssets
          market.totalBorrowShares + 1) * preciseUnit)) ∧
    (∀ withdrawn,
      notionalCollateral module v.setToken (params w).collateralToken quantity = .ok withdrawn →
      (Withdrawable collateral withdrawn ↔ preciseUnit ≤ collateralUnit * quantity)) := by
  obtain ⟨hwf', honly, _⟩ := syncPositions_frame hwf (sync_eq h).2
  have hcollateral := (syncPositions_synced hwf hsupply hbalances (sync_eq h).2).1 hne
  intro debtUnit collateralUnit
  constructor
  · intro repaid hrepaid
    obtain ⟨_, rfl⟩ := notionalDebt_eq_ok hrepaid
    exact repayable_iff market shares (debtUnit * quantity)
  · intro withdrawn hwithdrawn
    obtain ⟨hpos, rfl⟩ := notionalCollateral_eq_ok hwithdrawn
    have hbound : collateralUnit * w.setToken.totalSupply ≤ collateral * preciseUnit := by
      have hfloor := (hcollateral.floor_bounds hwf'.multiplier_pos (honly.positionMultiplier ▸ hm)
        hsupply).1
      rw [← Int.toNat_of_nonneg hpos.le] at hfloor
      exact_mod_cast hfloor
    rw [Withdrawable, floor_pos_iff]
    refine and_iff_left (Nat.div_le_of_le_mul ?_)
    calc collateralUnit * quantity ≤ collateralUnit * w.setToken.totalSupply :=
          Nat.mul_le_mul_left collateralUnit hle
      _ ≤ preciseUnit * collateral := Nat.mul_comm collateral preciseUnit ▸ hbound

/-! Seven shares owe six hundred million. One of them is redeemed; one wei of a share would repay
nothing, and all of them two more than is owed. -/

theorem redemption_acceptable_example : ∃ w v repaid withdrawn,
    exampleWorld (7 * 10 ^ 18) (10 ^ 18) (10 ^ 19) (6 * 10 ^ 14) = .ok w ∧
      sync reference 50 w = .ok v ∧ (-v.setToken.externalRealUnit 2 50).toNat = 85714286 ∧
      (v.setToken.externalRealUnit 1 50).toNat = 1428571428571428571 ∧
      notionalDebt 50 v.setToken 2 (10 ^ 18) = .ok repaid ∧
      Repayable exampleMarket (6 * 10 ^ 14) repaid ∧
      notionalCollateral 50 v.setToken 1 (10 ^ 18) = .ok withdrawn ∧
      Withdrawable (10 ^ 19) withdrawn := by
  have h : (do
      let w ← exampleWorld (7 * 10 ^ 18) (10 ^ 18) (10 ^ 19) (6 * 10 ^ 14)
      let balances ← getCollateralAndBorrowBalances reference w exampleParams
      let v ← sync reference 50 w
      let _ ← notionalDebt 50 v.setToken 2 (10 ^ 18)
      let _ ← notionalCollateral 50 v.setToken 1 (10 ^ 18)
      require (balances = (10 ^ 19, 6 * 10 ^ 8, 6 * 10 ^ 14) ∧
        w.setToken.totalSupply = 7 * 10 ^ 18 ∧ w.setToken.positionMultiplier = 10 ^ 18 ∧
        (-v.setToken.externalRealUnit 2 50).toNat = 85714286 ∧
        (v.setToken.externalRealUnit 1 50).toNat = 1428571428571428571) "") = .ok () := by
    decide +kernel
  simp only [bind_eq_ok, require_eq_ok] at h
  obtain ⟨w, hw, _, hbalances, v, hv, repaid, hrepaid, withdrawn, hwithdrawn, rfl, hsupply, hmultiplier,
    hdebtUnit, hcollateralUnit⟩ := h
  obtain ⟨hwf, hparams, _⟩ := exampleWorld_wellFormed hw
  obtain ⟨hrepayable, hwithdrawable⟩ := redemption_acceptable_iff exampleMarket hwf
    (by rw [hsupply]; decide) (by rw [hmultiplier]; decide) (by rw [hparams]; decide)
    (by rw [hparams]; exact hbalances) hv
    (show 10 ^ 18 ≤ w.setToken.totalSupply by rw [hsupply]; decide)
  rw [hparams] at hrepayable hwithdrawable
  refine ⟨w, v, repaid, withdrawn, hw, hv, hdebtUnit, hcollateralUnit, hrepaid,
    (hrepayable repaid hrepaid).mpr ?_, hwithdrawn, (hwithdrawable withdrawn hwithdrawn).mpr ?_⟩
  · show _ ≤ (-v.setToken.externalRealUnit 2 50).toNat * _ ∧
      (-v.setToken.externalRealUnit 2 50).toNat * _ < _
    rw [hdebtUnit]
    decide
  · show _ ≤ (v.setToken.externalRealUnit 1 50).toNat * _
    rw [hcollateralUnit]
    decide

theorem redemption_rejected : ∃ w v dust whole,
    exampleWorld (7 * 10 ^ 18) (10 ^ 18) (10 ^ 19) (6 * 10 ^ 14) = .ok w ∧
      sync reference 50 w = .ok v ∧ w.setToken.totalSupply = 7 * 10 ^ 18 ∧
      getCollateralAndBorrowBalances reference w exampleParams =
        .ok (10 ^ 19, 6 * 10 ^ 8, 6 * 10 ^ 14) ∧
      notionalDebt 50 v.setToken 2 1 = .ok dust ∧
      ¬Repayable exampleMarket (6 * 10 ^ 14) dust ∧
      notionalDebt 50 v.setToken 2 (7 * 10 ^ 18) = .ok whole ∧
      ¬Repayable exampleMarket (6 * 10 ^ 14) whole := by
  have h : (do
      let w ← exampleWorld (7 * 10 ^ 18) (10 ^ 18) (10 ^ 19) (6 * 10 ^ 14)
      let balances ← getCollateralAndBorrowBalances reference w exampleParams
      let v ← sync reference 50 w
      let dust ← notionalDebt 50 v.setToken 2 1
      let whole ← notionalDebt 50 v.setToken 2 (7 * 10 ^ 18)
      pure (w.setToken.totalSupply, balances, dust, whole)) =
      .ok (7 * 10 ^ 18, (10 ^ 19, 6 * 10 ^ 8, 6 * 10 ^ 14), 0, 6 * 10 ^ 8 + 2) := by
    decide +kernel
  simp only [bind_eq_ok, pure_eq_ok, Prod.mk.injEq] at h
  obtain ⟨w, hw, _, hbalances, v, hv, dust, hdust, whole, hwhole, hsupply, rfl, rfl, rfl⟩ := h
  exact ⟨w, v, _, _, hw, hv, hsupply, hbalances, hdust, by decide, hwhole, by decide⟩

end MorphoLeverageModule

end IndexProtocol
