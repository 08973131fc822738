import IndexProtocol.Leverage.Module
import IndexProtocol.Morpho.Reference

/-! What a sync leaves.

The collateral is divided by the supply rounded down and the debt rounded up,
then each unit is stored as a virtual unit and read back, both rounded to the
lesser number. Equity is never overstated and debt never understated, by less
than two in all, and a sync of what was synced writes nothing. -/
namespace IndexProtocol
open Evm PreciseUnitMath ModuleBase Morpho

namespace MorphoLeverageModule
variable {μ : Type} {morpho : MorphoBlue μ} {module : Address} {s t : SetToken}
  {component : Address} {unit : Int}

/-! ### One position -/

/-- The position of the module in the component is the one that a sync to `unit` leaves: the unit
reads back, or it was written by the module. -/
def Synced (module : Address) (s : SetToken) (component : Address) (unit : Int) : Prop :=
  s.getExternalPositionRealUnit component module = .ok unit ∨
    unit ≠ 0 ∧ s.Privileged module ∧ ∃ virtualUnit,
      s.convertRealToVirtualUnit unit = .ok virtualUnit ∧
        (s.componentPositions component).externalPositions module = ⟨virtualUnit, []⟩

/-- Default positions stay, and external positions but the one of the module in the component. -/
structure SameElsewhere (module : Address) (s t : SetToken) (component : Address) : Prop where
  only : s.OnlyPositions t
  default : ∀ c, t.defaultPositionVirtualUnit c = s.defaultPositionVirtualUnit c
  external : ∀ c m, ¬(c = component ∧ m = module) →
    (t.componentPositions c).externalPositions m = (s.componentPositions c).externalPositions m

theorem SameElsewhere.refl (s : SetToken) : SameElsewhere module s s component :=
  ⟨.refl s, fun _ => rfl, fun _ _ _ => rfl⟩

theorem updateExternalPosition_eq (h : s.WellFormed)
    (he : updateExternalPosition module s component unit = .ok t) :
    t.WellFormed ∧ SameElsewhere module s t component ∧
      (unit = 0 ∧ t.externalPositionVirtualUnit component module = 0 ∨
        unit ≠ 0 ∧ t.Privileged module ∧ ∃ virtualUnit,
          t.convertRealToVirtualUnit unit = .ok virtualUnit ∧
            (t.componentPositions component).externalPositions module = ⟨virtualUnit, []⟩) := by
  have hwf := SetToken.editExternalPosition_wellFormed h he
  obtain ⟨hzero, hvirtual, rfl⟩ | ⟨l, mods, virtualUnit, hunit, hprivileged, rfl, _⟩ :=
    SetToken.editExternalPosition_eq h he
  · exact ⟨h, .refl _, .inl ⟨hzero, hvirtual⟩⟩
  · refine ⟨hwf, ⟨rfl, fun c => ?_, fun c m hcm => ?_⟩, ?_⟩
    · exact congrFun (congrArg Portfolio.default
        (SetToken.setExternalPosition_portfolio (s := s.withComponents l) mods
          ⟨virtualUnit, []⟩)) c
    · exact SetToken.setExternalPosition_position_of_ne mods _ hcm
    · have hposition := @SetToken.setExternalPosition_position_same (s.withComponents l)
        component module mods ⟨virtualUnit, []⟩
      by_cases hzero : unit = 0
      · left
        subst hzero
        rw [SetToken.convertRealToVirtualUnit_zero h.multiplier_pos] at hunit
        obtain rfl : 0 = virtualUnit := by simpa using hunit
        exact ⟨rfl, by rw [SetToken.externalPositionVirtualUnit, hposition]⟩
      · exact .inr ⟨hzero, ⟨hprivileged.1, hprivileged.2, hprivileged.3⟩, virtualUnit, hunit,
          hposition⟩

theorem SameElsewhere.trans_ne {u : SetToken} {other : Address}
    (h : SameElsewhere module s t component) (h' : SameElsewhere module t u other) :
    s.OnlyPositions u ∧ (∀ c, u.defaultPositionVirtualUnit c = s.defaultPositionVirtualUnit c) ∧
      ∀ c m, ¬(m = module ∧ (c = component ∨ c = other)) →
        (u.componentPositions c).externalPositions m =
          (s.componentPositions c).externalPositions m := by
  refine ⟨h.only.trans h'.only, fun c => (h'.default c).trans (h.default c), fun c m hcm => ?_⟩
  rw [h'.external c m fun h => hcm ⟨h.2, .inr h.1⟩,
    h.external c m fun h => hcm ⟨h.2, .inl h.1⟩]

theorem getExternalPositionRealUnit_of_zero
    (h : s.externalPositionVirtualUnit component module = 0) :
    s.getExternalPositionRealUnit component module = .ok 0 := by
  refine SetToken.getExternalPositionRealUnit_eq_ok.mpr ⟨?_, ?_⟩
  · rw [h, Int.zero_mul]
    decide
  · rw [SetToken.externalRealUnit, h, SetToken.scale_zero]

/-- What syncing one position leaves. -/
theorem syncPosition_eq (h : s.WellFormed) (he : syncPosition module s component unit = .ok t) :
    t.WellFormed ∧ SameElsewhere module s t component ∧ Synced module t component unit := by
  simp only [syncPosition, bind_eq_ok] at he
  obtain ⟨previous, hprevious, he⟩ := he
  split_ifs at he with hne
  · obtain ⟨hwf, helsewhere, hwritten⟩ := updateExternalPosition_eq h he
    refine ⟨hwf, helsewhere, ?_⟩
    rcases hwritten with ⟨rfl, hzero⟩ | hwritten
    · exact .inl (getExternalPositionRealUnit_of_zero hzero)
    · exact .inr hwritten
  · obtain rfl : s = t := by simpa using he
    obtain rfl : previous = unit := not_not.mp hne
    exact ⟨h, .refl s, .inl hprevious⟩

theorem syncPosition_readable (h : syncPosition module s component unit = .ok t) :
    ∃ previous, s.getExternalPositionRealUnit component module = .ok previous := by
  simp only [syncPosition, bind_eq_ok] at h
  obtain ⟨previous, hprevious, _⟩ := h
  exact ⟨previous, hprevious⟩

/-- What was synced stays so while other positions are written. -/
theorem Synced.elsewhere {other : Address} (h : Synced module s component unit)
    (helsewhere : SameElsewhere module s t other) (hne : component ≠ other) :
    Synced module t component unit := by
  have hposition := helsewhere.external component module fun hcm => hne hcm.1
  rcases h with hread | ⟨hunit, hprivileged, virtualUnit, hconvert, hwritten⟩
  · left
    rwa [helsewhere.only.getExternalPositionRealUnit hposition]
  · refine .inr ⟨hunit, helsewhere.only.privileged_iff.mpr hprivileged, virtualUnit, ?_, ?_⟩
    · rwa [helsewhere.only.convertRealToVirtualUnit]
    · rwa [hposition]

/-- The unit that reads back is the synced one, or one less. -/
theorem Synced.bounds (h : Synced module s component unit) (hm : 0 < s.positionMultiplier)
    (hle : s.positionMultiplier ≤ preciseUnitInt) :
    unit - 1 ≤ s.externalRealUnit component module ∧ s.externalRealUnit component module ≤ unit := by
  rcases h with hread | ⟨_, _, virtualUnit, hconvert, hwritten⟩
  · obtain ⟨_, rfl⟩ := SetToken.getExternalPositionRealUnit_eq_ok.mp hread
    exact ⟨by omega, le_rfl⟩
  · rw [SetToken.externalRealUnit, SetToken.externalPositionVirtualUnit, hwritten]
    exact ⟨SetToken.sub_one_le_scale hm hle hconvert, (SetToken.scale_bounds hm hconvert).1⟩

/-- A synced unit that was rounded down is below the exact quotient, by less than two. -/
theorem Synced.floor_bounds {n d : Nat} (h : Synced module s component ((n / d : Nat) : Int))
    (hm : 0 < s.positionMultiplier) (hle : s.positionMultiplier ≤ preciseUnitInt) (hd : 0 < d) :
    s.externalRealUnit component module * d ≤ n ∧
      (n : Int) < (s.externalRealUnit component module + 2) * d := by
  obtain ⟨hlow, hhigh⟩ := h.bounds hm hle
  have hd' : (0 : Int) ≤ d := Int.natCast_nonneg d
  have hfloor := Nat.div_mul_le_self n d
  have hceil := Rounding.lt_floor_succ_mul n hd
  generalize n / d = quotient at *
  zify at hfloor hceil
  constructor
  · exact (Int.mul_le_mul_of_nonneg_right hhigh hd').trans hfloor
  · exact hceil.trans_le (Int.mul_le_mul_of_nonneg_right (by omega) hd')

/-- A synced unit that was rounded up is above the exact quotient, by less than two. -/
theorem Synced.ceil_bounds {n d : Nat} (h : Synced module s component (-((n ⌈/⌉ d : Nat) : Int)))
    (hm : 0 < s.positionMultiplier) (hle : s.positionMultiplier ≤ preciseUnitInt) (hd : 0 < d) :
    (n : Int) ≤ -s.externalRealUnit component module * d ∧
      (-s.externalRealUnit component module - 2) * d < n := by
  obtain ⟨hlow, hhigh⟩ := h.bounds hm hle
  have hd' : (0 : Int) ≤ d := Int.natCast_nonneg d
  have hfloor := Rounding.le_ceil_mul n hd
  have hceil := Rounding.ceil_mul_lt n hd
  generalize n ⌈/⌉ d = quotient at *
  zify at hfloor hceil
  constructor
  · exact hfloor.trans (Int.mul_le_mul_of_nonneg_right (by omega) hd')
  · have hstep := Int.mul_le_mul_of_nonneg_right
      (by omega : -s.externalRealUnit component module - 2 ≤ (quotient : Int) - 1) hd'
    linarith

/-- Positions synced to nothing are gone. -/
theorem Synced.eq_zero (h : Synced module s component 0) (hwf : s.WellFormed) :
    s.externalPositionVirtualUnit component module = 0 ∧
      module ∉ s.externalPositionModules component := by
  have hzero : s.externalPositionVirtualUnit component module = 0 := by
    rcases h with hread | ⟨hunit, _⟩
    · obtain ⟨_, hreal⟩ := SetToken.getExternalPositionRealUnit_eq_ok.mp hread
      exact not_not.mp fun hne => hwf.external_ne_zero_iff.mp hne hreal
    · exact absurd rfl hunit
  exact ⟨hzero, fun hmem => hwf.mem_externalPositionModules.mp hmem hzero⟩

/-- Syncing again writes nothing. -/
theorem Synced.again (h : Synced module s component unit) (hwf : s.WellFormed) {previous : Int}
    (hread : s.getExternalPositionRealUnit component module = .ok previous) :
    syncPosition module s component unit = .ok s := by
  simp only [syncPosition, hread]
  rcases h with hread' | ⟨hunit, hprivileged, virtualUnit, hconvert, hwritten⟩
  · obtain rfl : previous = unit := by simpa [hread] using hread'
    simp [bind, Except.bind, pure, Except.pure]
  · have hself := SetToken.editExternalPosition_self hwf hprivileged hunit hconvert hwritten
    simp [bind, Except.bind, pure, Except.pure, updateExternalPosition, hself]

/-- A positive unit that was synced can be read. -/
theorem Synced.readable (h : Synced module s component unit) (hm : 0 < s.positionMultiplier)
    (hunit : 0 ≤ unit) : ∃ previous, s.getExternalPositionRealUnit component module = .ok previous := by
  rcases h with hread | ⟨hne, _, virtualUnit, hconvert, hwritten⟩
  · exact ⟨unit, hread⟩
  · obtain ⟨_, _, hback⟩ := (SetToken.convertRealToVirtualUnit_eq_ok hm).mp hconvert
    refine ⟨_, SetToken.getExternalPositionRealUnit_eq_ok.mpr ⟨?_, rfl⟩⟩
    rw [SetToken.externalPositionVirtualUnit, hwritten]
    exact (hback (lt_of_le_of_ne hunit (Ne.symm hne))).1

/-! ### The units -/

theorem positionUnits_eq_ok {supply collateral debt : Nat} {units : Int × Int}
    (h : positionUnits supply collateral debt = .ok units) :
    0 < supply ∧ units.1 = ((collateral * preciseUnit / supply : Nat) : Int) ∧
      units.2 = -((debt * preciseUnit ⌈/⌉ supply : Nat) : Int) := by
  simp only [positionUnits, bind_eq_ok, preciseDiv_eq_ok, SafeCast.toInt256_eq_ok,
    preciseDivCeil_eq_ok, SignedSafeMath.mul_eq_ok, pure_eq_ok] at h
  obtain ⟨_, ⟨_, hsupply, rfl⟩, _, ⟨_, rfl⟩, _, ⟨_, _, rfl⟩, _, ⟨_, rfl⟩, _, ⟨_, rfl⟩, rfl⟩ := h
  exact ⟨hsupply, rfl, by omega⟩

theorem getCollateralAndBorrowPositions_eq {w : LeverageWorld μ} {p : MarketParams}
    {supply collateral debt shares : Nat} (hsupply : 0 < supply)
    (hbalances : getCollateralAndBorrowBalances morpho w p = .ok (collateral, debt, shares)) :
    getCollateralAndBorrowPositions morpho w p supply = positionUnits supply collateral debt := by
  rw [getCollateralAndBorrowPositions, if_neg hsupply.ne', hbalances, ok_bind]

/-- A sync, one position after the other. -/
theorem syncPositions_eq {w v : LeverageWorld μ} (h : syncPositions morpho module w = .ok v) :
    (params w).collateralToken ≠ 0 ∧ ∃ units s₁,
      getCollateralAndBorrowPositions morpho w (params w) w.setToken.totalSupply = .ok units ∧
        syncPosition module w.setToken (params w).collateralToken units.1 = .ok s₁ ∧
        syncPosition module s₁ (params w).loanToken units.2 = .ok v.setToken ∧
        v = { w with setToken := v.setToken } := by
  simp only [syncPositions, bind_eq_ok, require_eq_ok, exists_const, pure_eq_ok] at h
  obtain ⟨hset, units, hunits, s₁, hcollateral, s₂, hloan, rfl⟩ := h
  exact ⟨hset, units, s₁, hunits, hcollateral, hloan, rfl⟩

theorem validity_of_only (h : s.OnlyPositions t) :
    isSetValidAndInitialized t module = isSetValidAndInitialized s module := by
  rw [← h]
  rfl

/-- A sync to units that both positions already have writes nothing, and returns where the loan
token's unit can be read. -/
theorem syncPositions_again {w : LeverageWorld μ} {units : Int × Int}
    (hwf : w.setToken.WellFormed) (hset : (params w).collateralToken ≠ 0)
    (hunits : getCollateralAndBorrowPositions morpho w (params w) w.setToken.totalSupply = .ok units)
    (hcollateral : Synced module w.setToken (params w).collateralToken units.1)
    (hdebt : Synced module w.setToken (params w).loanToken units.2) (hunit : 0 ≤ units.1) :
    (∀ after, syncPositions morpho module w = .ok after → after = w) ∧
      ∀ previous, w.setToken.getExternalPositionRealUnit (params w).loanToken module = .ok previous →
        syncPositions morpho module w = .ok w := by
  obtain ⟨_, hread⟩ := hcollateral.readable hwf.multiplier_pos hunit
  have hagain := hcollateral.again hwf hread
  refine ⟨fun after hafter => ?_, fun previous hloan => ?_⟩
  · obtain ⟨_, _, s₁, hunits', hfirst, hsecond, hafter⟩ := syncPositions_eq hafter
    obtain rfl := Except.ok.inj (hunits.symm.trans hunits')
    obtain rfl := Except.ok.inj (hagain.symm.trans hfirst)
    obtain ⟨_, hloan⟩ := syncPosition_readable hsecond
    rw [hdebt.again hwf hloan] at hsecond
    rw [hafter, ← Except.ok.inj hsecond]
  · have hcheck : require ((params w).collateralToken ≠ 0) "Collateral not set" = .ok () := if_pos hset
    rw [syncPositions, hcheck, hunits]
    simp [hagain, hdebt.again hwf hloan, bind, Except.bind, pure, Except.pure]

/-- What a sync leaves. Where both tokens are the same, the debt is written over the collateral. -/
theorem syncPositions_frame {w v : LeverageWorld μ} (hwf : w.setToken.WellFormed)
    (h : syncPositions morpho module w = .ok v) :
    v.setToken.WellFormed ∧ w.setToken.OnlyPositions v.setToken ∧ params v = params w ∧
      (∃ units, getCollateralAndBorrowPositions morpho w (params w) w.setToken.totalSupply = .ok units ∧
        ((params w).collateralToken ≠ (params w).loanToken →
          Synced module v.setToken (params w).collateralToken units.1) ∧
        Synced module v.setToken (params w).loanToken units.2) ∧
      (∀ c, v.setToken.defaultPositionVirtualUnit c = w.setToken.defaultPositionVirtualUnit c) ∧
      ∀ c m, ¬(m = module ∧ IsMarketToken w c) →
        (v.setToken.componentPositions c).externalPositions m =
          (w.setToken.componentPositions c).externalPositions m := by
  obtain ⟨_, units, s₁, hunits, hcollateral, hloan, hv⟩ := syncPositions_eq h
  obtain ⟨hwf₁, helsewhere₁, hsynced₁⟩ := syncPosition_eq hwf hcollateral
  obtain ⟨hwf₂, helsewhere₂, hsynced₂⟩ := syncPosition_eq hwf₁ hloan
  obtain ⟨honly, hdefault, hexternal⟩ := helsewhere₁.trans_ne helsewhere₂
  refine ⟨hwf₂, honly, ?_, ⟨units, hunits, hsynced₁.elsewhere helsewhere₂, hsynced₂⟩, hdefault,
    hexternal⟩
  rw [hv]
  rfl

/-- What a sync leaves in both positions, with shares in circulation. -/
theorem syncPositions_synced {w v : LeverageWorld μ} {collateral debt shares : Nat}
    (hwf : w.setToken.WellFormed) (hsupply : 0 < w.setToken.totalSupply)
    (hbalances : getCollateralAndBorrowBalances morpho w (params w) = .ok (collateral, debt, shares))
    (h : syncPositions morpho module w = .ok v) :
    ((params w).collateralToken ≠ (params w).loanToken →
      Synced module v.setToken (params w).collateralToken
        ((collateral * preciseUnit / w.setToken.totalSupply : Nat) : Int)) ∧
      Synced module v.setToken (params w).loanToken
        (-((debt * preciseUnit ⌈/⌉ w.setToken.totalSupply : Nat) : Int)) := by
  obtain ⟨_, _, _, ⟨units, hunits, hcollateral, hdebt⟩, _⟩ := syncPositions_frame hwf h
  rw [getCollateralAndBorrowPositions_eq hsupply hbalances] at hunits
  obtain ⟨_, hc, hd⟩ := positionUnits_eq_ok hunits
  exact ⟨fun hne => hc ▸ hcollateral hne, hd ▸ hdebt⟩

theorem sync_eq {w v : LeverageWorld μ} (h : sync morpho module w = .ok v) :
    validateOnlyValidAndInitializedSet w.setToken module = .ok () ∧
      syncPositions morpho module w = .ok v := by
  simp only [sync, bind_eq_ok] at h
  obtain ⟨⟨⟩, hvalid, h⟩ := h
  exact ⟨hvalid, h⟩

/-- A second sync at the same balances. -/
theorem sync_again {w v again : LeverageWorld μ} {collateral debt shares shares' : Nat}
    (hwf : w.setToken.WellFormed) (hsupply : 0 < w.setToken.totalSupply)
    (hne : (params w).collateralToken ≠ (params w).loanToken)
    (hbalances : getCollateralAndBorrowBalances morpho w (params w) = .ok (collateral, debt, shares))
    (h : sync morpho module w = .ok v) (hsame : again.setToken = v.setToken)
    (hparams : params again = params w)
    (hbalances' : getCollateralAndBorrowBalances morpho again (params again) =
      .ok (collateral, debt, shares')) :
    (∀ after, sync morpho module again = .ok after → after = again) ∧
      ∀ previous, v.setToken.getExternalPositionRealUnit (params w).loanToken module = .ok previous →
        sync morpho module again = .ok again := by
  obtain ⟨hvalid, h⟩ := sync_eq h
  have hset := (syncPositions_eq h).1
  obtain ⟨hwf', honly, _, ⟨units, hunits, hcollateral, hdebt⟩, _⟩ := syncPositions_frame hwf h
  replace hcollateral := hcollateral hne
  rw [getCollateralAndBorrowPositions_eq hsupply hbalances] at hunits
  have hunit : 0 ≤ units.1 := (positionUnits_eq_ok hunits).2.1 ▸ Int.natCast_nonneg _
  have hunits' : getCollateralAndBorrowPositions morpho again (params again)
      again.setToken.totalSupply = .ok units := by
    rw [hsame, honly.totalSupply, getCollateralAndBorrowPositions_eq hsupply hbalances', hunits]
  rw [← hsame] at hwf' hcollateral hdebt
  rw [← hparams] at hset hcollateral hdebt
  have hsync : sync morpho module again = syncPositions morpho module again := by
    have hvalid' : validateOnlyValidAndInitializedSet again.setToken module = .ok () := by
      rw [hsame]
      unfold validateOnlyValidAndInitializedSet
      rwa [validity_of_only honly]
    rw [sync, hvalid', ok_bind]
  rw [hsync, ← hsame, ← hparams]
  exact syncPositions_again hwf' hset hunits' hcollateral hdebt hunit

/-- **The sync theorem.** After a sync the collateral unit is the exact quotient rounded down and
the debt unit the exact quotient rounded up, each by less than two; a balance of zero leaves no
position, nothing else changes, and a second sync at the same balances changes nothing at all.
It could fail only if the debt's real unit no longer fit an `int256`. -/
theorem sync_conservative {w v : LeverageWorld μ} {collateral debt shares : Nat}
    (hwf : w.setToken.WellFormed) (hsupply : 0 < w.setToken.totalSupply)
    (hm : w.setToken.positionMultiplier ≤ preciseUnitInt)
    (hne : (params w).collateralToken ≠ (params w).loanToken)
    (hbalances : getCollateralAndBorrowBalances morpho w (params w) = .ok (collateral, debt, shares))
    (h : sync morpho module w = .ok v) :
    let supply : Int := w.setToken.totalSupply
    let collateralUnit := v.setToken.externalRealUnit (params w).collateralToken module
    let debtUnit := -v.setToken.externalRealUnit (params w).loanToken module
    (collateralUnit * supply ≤ collateral * preciseUnitInt ∧
      collateral * preciseUnitInt < (collateralUnit + 2) * supply) ∧
    (debt * preciseUnitInt ≤ debtUnit * supply ∧
      (debtUnit - 2) * supply < debt * preciseUnitInt) ∧
    (collateral = 0 →
      v.setToken.externalPositionVirtualUnit (params w).collateralToken module = 0 ∧
        module ∉ v.setToken.externalPositionModules (params w).collateralToken) ∧
    (debt = 0 → v.setToken.externalPositionVirtualUnit (params w).loanToken module = 0 ∧
      module ∉ v.setToken.externalPositionModules (params w).loanToken) ∧
    (v = { w with setToken := v.setToken } ∧ w.setToken.OnlyPositions v.setToken ∧
      (∀ c, v.setToken.defaultPositionVirtualUnit c = w.setToken.defaultPositionVirtualUnit c) ∧
      ∀ c m, ¬(m = module ∧ (c = (params w).collateralToken ∨ c = (params w).loanToken)) →
        (v.setToken.componentPositions c).externalPositions m =
            (w.setToken.componentPositions c).externalPositions m ∧
          (m ∈ v.setToken.externalPositionModules c ↔ m ∈ w.setToken.externalPositionModules c)) ∧
    ∀ again : LeverageWorld μ, again.setToken = v.setToken → params again = params w →
      (∃ shares', getCollateralAndBorrowBalances morpho again (params again) =
        .ok (collateral, debt, shares')) →
      (∀ after, sync morpho module again = .ok after → after = again) ∧
      ∀ previous, v.setToken.getExternalPositionRealUnit (params w).loanToken module = .ok previous →
        sync morpho module again = .ok again := by
  have hpositions := (sync_eq h).2
  obtain ⟨_, _, _, _, _, _, hv⟩ := syncPositions_eq hpositions
  obtain ⟨hwf', honly, _, _, hdefault, hexternal⟩ := syncPositions_frame hwf hpositions
  obtain ⟨hcollateral, hdebt⟩ := syncPositions_synced hwf hsupply hbalances hpositions
  replace hcollateral := hcollateral hne
  have hm' : v.setToken.positionMultiplier ≤ preciseUnitInt := honly.positionMultiplier ▸ hm
  refine ⟨?_, ?_, ?_, ?_, ⟨hv, honly, hdefault, fun c m hcm => ⟨hexternal c m hcm, ?_⟩⟩, ?_⟩
  · have hbounds := hcollateral.floor_bounds hwf'.multiplier_pos hm' hsupply
    rwa [Nat.cast_mul, preciseUnit_cast] at hbounds
  · have hbounds := hdebt.ceil_bounds hwf'.multiplier_pos hm' hsupply
    rwa [Nat.cast_mul, preciseUnit_cast] at hbounds
  · rintro rfl
    rw [Nat.zero_mul, Nat.zero_div] at hcollateral
    exact hcollateral.eq_zero hwf'
  · rintro rfl
    rw [Nat.zero_mul, zero_ceilDiv] at hdebt
    exact hdebt.eq_zero hwf'
  · rw [hwf'.mem_externalPositionModules, hwf.mem_externalPositionModules,
      SetToken.externalPositionVirtualUnit, SetToken.externalPositionVirtualUnit, hexternal c m hcm]
  · rintro again hsame hparams ⟨shares', hbalances'⟩
    exact sync_again hwf hsupply hne hbalances h hsame hparams hbalances'

/-! A SetToken of seven shares with ten collateral tokens and a debt of five on the interest-free
Morpho. -/

def exampleController : Controller where
  isInitialized := true
  isSet := fun _ => true
  isFactory := fun a => a == 7
  isModule := fun a => a == 50 || a == 60
  fees := fun _ _ => 0
  feeRecipient := 8
  integrationAdapter := fun _ _ => 60

def exampleParams : MarketParams := ⟨2, 1, 3, 0, 86 * 10 ^ 16⟩

def exampleTokens : Tokens := fun _ => ⟨fun _ => 10 ^ 30, fun _ _ => 10 ^ 30, 10 ^ 32⟩

def exampleMarket : Market := ⟨10 ^ 13, 10 ^ 19, 10 ^ 12, 10 ^ 18, 1, 0⟩

def exampleState (collateral borrowShares : Nat) : LeverageState Ledger where
  morpho :=
    { markets := fun _ => exampleMarket
      positions := fun _ _ => ⟨0, borrowShares, collateral⟩ }
  timestamp := 1
  marketParams := exampleParams
  allowedSetToken := true
  anySetAllowed := false

def exampleSettings : IssuanceSettings :=
  ⟨10 ^ 17, 0, 0, 8, 0, [50], fun a => a == 50⟩

def exampleCreation : Result SetToken :=
  SetTokenCreator.create { exampleController with isSet := fun _ => false } 7 100 [1] [10 ^ 18]
    [50, 60] 9

def exampleCalls (supply : Nat) (multiplier : Int) : List SetToken.Call :=
  [.initializeModule 60, .initializeModule 50, .changeController exampleController,
    .mint 60 77 supply, .edit (.editPositionMultiplier 60 multiplier)]

def exampleWorld (supply : Nat) (multiplier : Int) (collateral borrowShares : Nat) :
    Result (LeverageWorld Ledger) := do
  let s ← exampleCreation
  let s ← runs SetToken.call s (exampleCalls supply multiplier)
  pure ⟨s, exampleTokens, exampleSettings, exampleState collateral borrowShares⟩

theorem exampleWorld_wellFormed {supply : Nat} {multiplier : Int} {collateral borrowShares : Nat}
    {w : LeverageWorld Ledger} (h : exampleWorld supply multiplier collateral borrowShares = .ok w) :
    w.setToken.WellFormed ∧ params w = exampleParams ∧
      w.rest.issuanceSettings.moduleIssuanceHooks = [50] := by
  simp only [exampleWorld, bind_eq_ok, pure_eq_ok] at h
  obtain ⟨_, hcreate, s, hrun, rfl⟩ := h
  exact ⟨SetToken.reachable_wellFormed hcreate hrun, rfl, rfl⟩

theorem sync_conservative_example :
    ∃ w v, exampleWorld 7 (9 * 10 ^ 17) 10 (49 * 10 ^ 5) = .ok w ∧ sync reference 50 w = .ok v ∧
      v.setToken.externalRealUnit 1 50 * 7 ≤ 10 * preciseUnitInt ∧
      10 * preciseUnitInt < (v.setToken.externalRealUnit 1 50 + 2) * 7 := by
  have h : (do
      let w ← exampleWorld 7 (9 * 10 ^ 17) 10 (49 * 10 ^ 5)
      let balances ← getCollateralAndBorrowBalances reference w exampleParams
      let v ← sync reference 50 w
      pure (w.setToken.totalSupply, w.setToken.positionMultiplier, balances,
        v.setToken.externalRealUnit 2 50)) =
      .ok (7, 9 * 10 ^ 17, (10, 5, 49 * 10 ^ 5), -714285714285714287) := by
    decide +kernel
  simp only [bind_eq_ok, pure_eq_ok, Prod.mk.injEq] at h
  obtain ⟨w, hw, _, hbalances, v, hv, hsupply, hmultiplier, rfl, _⟩ := h
  obtain ⟨hwf, hparams, _⟩ := exampleWorld_wellFormed hw
  have hconservative := (sync_conservative hwf
    (by rw [hsupply]; decide) (by rw [hmultiplier]; decide) (by rw [hparams]; decide)
    (by rw [hparams]; exact hbalances) hv).1
  rw [hparams, hsupply] at hconservative
  exact ⟨w, v, hw, hv, hconservative⟩

end MorphoLeverageModule

end IndexProtocol
