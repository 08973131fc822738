import IndexProtocol.Leverage.Settlement

/-! Issuing and redeeming a leveraged SetToken.

Issuing is balanced: what the hook borrows is what the issuer is paid, and the
collateral supplied stays within what was collected for it. Redeeming is not:
debt is collected rounded up and repaid rounded down, and equity is paid out of
a sum but withdrawn by a part of it, so that a wei of debt can be left in the
SetToken and a wei of what backs the default position be paid out. -/
namespace IndexProtocol
open Evm PreciseUnitMath ModuleBase Morpho

namespace MorphoLeverageModule
open DebtIssuanceModule
variable {μ : Type} {morpho : MorphoBlue μ} {issuance leverage : Address}
  {hooks : Address → ModuleIssuanceHook (LeverageState μ)} {w w₁ v : LeverageWorld μ}
  {sender recipient : Address} {quantity total managerFee protocolFee : Nat}

theorem redeem_resolved (hpre : callModulePreRedeemHooks issuance hooks w quantity = .ok w₁)
    (h : redeem issuance hooks w sender quantity recipient = .ok v) :
    redeemResolved issuance hooks w₁ sender quantity recipient = .ok v := by
  simp only [redeem, bind_eq_ok] at h
  obtain ⟨_, _, _, _, w₂, hpre', h⟩ := h
  obtain rfl := Except.ok.inj (hpre.symm.trans hpre')
  exact h

theorem issue_resolved {managerHooks : Address → PreIssueHook (IssuanceState (LeverageState μ))}
    (hpre : callModulePreIssueHooks issuance hooks w quantity = .ok w₁)
    (h : issue issuance hooks managerHooks w sender quantity recipient = .ok v) :
    issueResolved issuance hooks w₁ sender quantity recipient = .ok v := by
  simp only [issue, bind_eq_ok] at h
  obtain ⟨_, _, _, _, _, _, w₂, hpre', h⟩ := h
  obtain rfl := Except.ok.inj (hpre.symm.trans hpre')
  exact h

/-- **When redeeming settles exactly.** From the state after the hooks before it, redeeming leaves
no loan token that was collected as debt, and pays no collateral beyond what it withdrew and the
default share, exactly when the debt of the quantity is whole and the parts of its equity carry
nothing over. -/
theorem redeem_settles_iff (hpre : callModulePreRedeemHooks issuance hooks w quantity = .ok w₁)
    (hset : Setting morpho leverage hooks w₁.setToken (params w₁))
    (hdebt : w₁.setToken.externalRealUnit (params w₁).loanToken leverage < 0)
    (hfees : calculateTotalFees issuance w₁.setToken w₁.rest.issuanceSettings quantity false =
      .ok (total, managerFee, protocolFee))
    (h : redeem issuance hooks w sender quantity recipient = .ok v) :
    let s := w₁.setToken
    let loan := (params w₁).loanToken
    let collateral := (params w₁).collateralToken
    v.balance loan + defaultUnit s loan * total / preciseUnit = w₁.balance loan ∧
        w₁.balance collateral ≤
          v.balance collateral + defaultUnit s collateral * total / preciseUnit ↔
      debtUnit s leverage loan * total % preciseUnit = 0 ∧
        defaultUnit s collateral * total % preciseUnit +
          equityUnit s leverage collateral * total % preciseUnit < preciseUnit := by
  dsimp only
  have hresolved := redeem_resolved hpre h
  refine and_congr ?_ ?_
  · have hbalance := hset.redeem_balance
      (show IsMarketToken w₁ (params w₁).loanToken from .inr rfl) (.inr hdebt.le) hfees hresolved
    have hequity : equityUnit w₁.setToken leverage (params w₁).loanToken = 0 :=
      Int.toNat_of_nonpos hdebt.le
    rw [hookEquity_of_nonpos hdebt.le, hequity, Nat.add_zero, hookDebt] at hbalance
    rw [← Rounding.ceil_eq_floor_iff _ preciseUnit_pos]
    omega
  · have hbalance := hset.redeem_balance
      (show IsMarketToken w₁ (params w₁).collateralToken from .inl rfl) (.inl rfl) hfees hresolved
    have hle := Rounding.floor_le_ceil
      (debtUnit w₁.setToken leverage (params w₁).collateralToken * total) preciseUnit_pos
    rw [hookDebt, hookEquity] at hbalance
    rw [← Rounding.add_floor_le_iff _ _ preciseUnit_pos, ← Nat.add_mul]
    -- The position is equity or debt, not both.
    rcases Int.le_total 0 (w₁.setToken.externalRealUnit (params w₁).collateralToken leverage)
      with hsign | hsign
    · have hzero : debtUnit w₁.setToken leverage (params w₁).collateralToken = 0 :=
        Int.toNat_of_nonpos (by omega)
      rw [hzero, Nat.zero_mul, Nat.zero_div, zero_ceilDiv] at hbalance
      omega
    · have hzero : equityUnit w₁.setToken leverage (params w₁).collateralToken = 0 :=
        Int.toNat_of_nonpos hsign
      rw [hzero, Nat.add_zero, Nat.zero_mul, Nat.zero_div] at hbalance ⊢
      omega

/-- **Issuing is balanced.** From the state after the hooks before it, what is borrowed is what is
paid out as debt, the collateral supplied is within what was collected beyond the default share,
and of neither token more than the default share and two wei stay in the SetToken. -/
theorem issue_balanced {managerHooks : Address → PreIssueHook (IssuanceState (LeverageState μ))}
    (hpre : callModulePreIssueHooks issuance hooks w quantity = .ok w₁)
    (hset : Setting morpho leverage hooks w₁.setToken (params w₁))
    (hdebt : w₁.setToken.externalRealUnit (params w₁).loanToken leverage < 0)
    (hfees : calculateTotalFees issuance w₁.setToken w₁.rest.issuanceSettings quantity true =
      .ok (total, managerFee, protocolFee))
    (h : issue issuance hooks managerHooks w sender quantity recipient = .ok v) :
    let s := w₁.setToken
    let loan := (params w₁).loanToken
    let collateral := (params w₁).collateralToken
    ∃ units w₂ w₃,
      calculateRequiredComponentIssuanceUnits s total true = .ok units ∧
      resolveEquityPositions issuance hooks w₁ sender recipient total true units = .ok w₂ ∧
      resolveDebtPositions issuance hooks w₂ sender total true units = .ok w₃ ∧
      w₃.balance loan = w₂.balance loan ∧
      (∀ a ∈ units, a.component = loan → a.debt = hookDebt s leverage loan total) ∧
      (∀ a ∈ units, a.component = collateral →
        hookEquity s leverage collateral total +
          defaultUnit s collateral * total ⌈/⌉ preciseUnit ≤ a.equity) ∧
      ∀ t, t = collateral ∨ t = loan →
        w₁.balance t + defaultUnit s t * total ⌈/⌉ preciseUnit ≤ v.balance t ∧
        v.balance t * preciseUnit <
          w₁.balance t * preciseUnit + defaultUnit s t * total + 2 * preciseUnit := by
  dsimp only
  have hresolved := issue_resolved hpre h
  have hbalance (t : Address) (ht : IsMarketToken w₁ t) :=
    hset.issue_balance ht (ht.imp id fun hloan => by
      rw [hloan]
      exact hdebt.le) hfees hresolved
  simp only [issueResolved, bind_eq_ok] at hresolved
  obtain ⟨fees, hfees', units, hunits, w₂, hequities, w₃, hdebts, _⟩ := hresolved
  obtain rfl := Except.ok.inj (hfees.symm.trans hfees')
  have hamounts := (hset.required hunits).2
  refine ⟨units, w₂, w₃, hunits, hequities, hdebts, ?_, ?_, ?_, ?_⟩
  · obtain ⟨hkept, _⟩ := hset.resolveEquities_issue
      (show IsMarketToken w₁ (params w₁).collateralToken from .inl rfl) (.inl rfl) hunits hequities
    exact ((hset.keep hkept).resolveDebts_issue (hkept.isMarketToken.mpr (.inr rfl))
      (hkept.setToken ▸ hunits) hdebts).2
  · rintro a ha hloan
    have hamount := (hamounts a ha (.inr hloan)).2
    rw [if_pos rfl, hloan] at hamount
    exact hamount
  · rintro a ha hcollateral
    have hamount := (hamounts a ha (.inl hcollateral)).1
    rw [if_pos rfl, hcollateral, Nat.add_mul, Nat.add_comm] at hamount
    rw [hamount]
    exact Rounding.floor_add_ceil_le _ _ preciseUnit_pos
  · intro t ht
    have hbalance := hbalance t ht
    have hparts := Rounding.floor_add_ceil_le (equityUnit w₁.setToken leverage t * total)
      (defaultUnit w₁.setToken t * total) preciseUnit_pos
    have hceil := Rounding.ceil_mul_lt
      ((defaultUnit w₁.setToken t + equityUnit w₁.setToken leverage t) * total) preciseUnit_pos
    have hfloor := Rounding.lt_floor_succ_mul (equityUnit w₁.setToken leverage t * total)
      preciseUnit_pos
    have hsum : (defaultUnit w₁.setToken t + equityUnit w₁.setToken leverage t) * total =
        equityUnit w₁.setToken leverage t * total + defaultUnit w₁.setToken t * total := by ring
    rw [hookEquity, hsum] at hbalance
    rw [hsum] at hceil
    constructor
    · omega
    · have hscaled := congrArg (· * preciseUnit) hbalance
      simp only [Nat.add_mul] at hscaled hfloor
      omega

/-! Three tenths more than one of seven shares is redeemed, and one is issued. -/

def exampleHooks (m : Address) : ModuleIssuanceHook (LeverageState Ledger) :=
  if m = 50 then issuanceHook reference 50
  else ⟨fun _ w _ => pure w, fun _ w _ => pure w, fun _ w _ _ _ => pure w, fun _ w _ _ _ => pure w⟩

def exampleShares : Result (LeverageWorld Ledger) :=
  exampleWorld (7 * 10 ^ 18) (10 ^ 18) (10 ^ 19) (6 * 10 ^ 14)

/-- The only hook before an issuance or a redemption is the module's sync. -/
theorem example_hooks {w w₁ : LeverageWorld Ledger} (hw : exampleShares = .ok w)
    (hpre : callModulePreRedeemHooks 60 exampleHooks w quantity = .ok w₁ ∨
      callModulePreIssueHooks 60 exampleHooks w quantity = .ok w₁) : sync reference 50 w = .ok w₁ := by
  have hhooks := (exampleWorld_wellFormed hw).2.2
  rw [callModulePreRedeemHooks, callModulePreIssueHooks, hhooks, runs_cons_eq_ok,
    runs_cons_eq_ok] at hpre
  obtain ⟨u, hu, hrest⟩ | ⟨u, hu, hrest⟩ := hpre
  all_goals
    obtain rfl := Except.ok.inj hrest
    simp only [exampleHooks, if_pos, issuanceHook, moduleRedeemHook, moduleIssueHook,
      bind_eq_ok] at hu
    obtain ⟨_, _, hu⟩ := hu
    exact hu

/-- What the hook leaves meets the assumptions. -/
theorem example_setting {w w₁ : LeverageWorld Ledger} (hw : exampleShares = .ok w)
    (hpre : callModulePreRedeemHooks 60 exampleHooks w quantity = .ok w₁ ∨
      callModulePreIssueHooks 60 exampleHooks w quantity = .ok w₁)
    (hmodules : ∀ c, c = 1 ∨ c = 2 → w₁.setToken.externalPositionModules c = [50])
    (hself : w₁.setToken.self = 100) :
    Setting reference 50 exampleHooks w₁.setToken (params w₁) ∧ params w₁ = exampleParams := by
  obtain ⟨hwf, hparams, _⟩ := exampleWorld_wellFormed hw
  obtain ⟨hwf', _, hparams', _⟩ := syncPositions_frame hwf (sync_eq (example_hooks hw hpre)).2
  rw [hparams] at hparams'
  refine ⟨⟨reference_lawful, ?_, rfl, hwf', fun c hc m hm => ?_, fun c _ _ m _ hm => ?_⟩, hparams'⟩
  · rw [hself]
    decide
  · rw [hparams'] at hc
    rw [hmodules c hc] at hm
    exact List.mem_singleton.mp hm
  · intro caller w v quantity isEquity _ h
    simp only [exampleHooks, if_neg hm, pure_eq_ok, or_self] at h
    exact h ▸ .refl c w

theorem redeem_settles_example : ∃ w w₁ v, exampleShares = .ok w ∧
    callModulePreRedeemHooks 60 exampleHooks w (10 ^ 18) = .ok w₁ ∧
    redeem 60 exampleHooks w 77 (10 ^ 18) 78 = .ok v ∧
    v.balance 2 + defaultUnit w₁.setToken 2 * 10 ^ 18 / preciseUnit = w₁.balance 2 := by
  have h : (do
      let w ← exampleShares
      let w₁ ← callModulePreRedeemHooks 60 exampleHooks w (10 ^ 18)
      let fees ← calculateTotalFees 60 w₁.setToken w₁.rest.issuanceSettings (10 ^ 18) false
      let v ← redeem 60 exampleHooks w 77 (10 ^ 18) 78
      require (w₁.setToken.self = 100 ∧ w₁.setToken.externalPositionModules 1 = [50] ∧
        w₁.setToken.externalPositionModules 2 = [50]) ""
      require (w₁.setToken.externalRealUnit 2 50 < 0 ∧ fees = (10 ^ 18, 0, 0)) ""
      require (debtUnit w₁.setToken 50 2 * 10 ^ 18 % preciseUnit = 0 ∧
        defaultUnit w₁.setToken 1 * 10 ^ 18 % preciseUnit +
          equityUnit w₁.setToken 50 1 * 10 ^ 18 % preciseUnit < preciseUnit) "") = .ok () := by
    decide +kernel
  simp only [bind_eq_ok, require_eq_ok, exists_const] at h
  obtain ⟨w, hw, w₁, hw₁, fees, hfees, v, hv, ⟨hself, hcollateral, hloan⟩, ⟨hdebt, rfl⟩, hwhole⟩ := h
  obtain ⟨hset, hparams⟩ := example_setting hw (.inl hw₁) (by rintro c (rfl | rfl) <;> assumption) hself
  have hsettles := redeem_settles_iff hw₁ hset
    (by rw [hparams]; exact hdebt) hfees hv
  rw [hparams] at hsettles
  exact ⟨w, w₁, v, hw, hw₁, hv, (hsettles.mpr hwhole).1⟩

theorem redeem_strands_debt : ∃ w w₁ v, exampleShares = .ok w ∧
    callModulePreRedeemHooks 60 exampleHooks w (13 * 10 ^ 17) = .ok w₁ ∧
    redeem 60 exampleHooks w 77 (13 * 10 ^ 17) 78 = .ok v ∧
    w₁.setToken.externalRealUnit 2 50 < 0 ∧ defaultUnit w₁.setToken 2 = 0 ∧
    v.balance 2 = w₁.balance 2 + 1 := by
  have h : (do
      let w ← exampleShares
      let w₁ ← callModulePreRedeemHooks 60 exampleHooks w (13 * 10 ^ 17)
      let v ← redeem 60 exampleHooks w 77 (13 * 10 ^ 17) 78
      require (w₁.setToken.externalRealUnit 2 50 < 0 ∧ defaultUnit w₁.setToken 2 = 0 ∧
        v.balance 2 = w₁.balance 2 + 1) "") = .ok () := by
    decide +kernel
  simp only [bind_eq_ok, require_eq_ok] at h
  obtain ⟨w, hw, w₁, hw₁, v, hv, hdebt⟩ := h
  exact ⟨w, w₁, v, hw, hw₁, hv, hdebt⟩

theorem issue_balanced_example : ∃ w w₁ v, exampleShares = .ok w ∧
    callModulePreIssueHooks 60 exampleHooks w (13 * 10 ^ 17) = .ok w₁ ∧
    issue 60 exampleHooks (fun _ _ _ _ _ => pure ()) w 77 (13 * 10 ^ 17) 78 = .ok v ∧
    w₁.balance 1 + 13 * 10 ^ 17 ≤ v.balance 1 ∧
    v.balance 2 * preciseUnit < w₁.balance 2 * preciseUnit + 2 * preciseUnit := by
  have h : (do
      let w ← exampleShares
      let w₁ ← callModulePreIssueHooks 60 exampleHooks w (13 * 10 ^ 17)
      let fees ← calculateTotalFees 60 w₁.setToken w₁.rest.issuanceSettings (13 * 10 ^ 17) true
      let v ← issue 60 exampleHooks (fun _ _ _ _ _ => pure ()) w 77 (13 * 10 ^ 17) 78
      require (w₁.setToken.self = 100 ∧ w₁.setToken.externalPositionModules 1 = [50] ∧
        w₁.setToken.externalPositionModules 2 = [50]) ""
      require (w₁.setToken.externalRealUnit 2 50 < 0 ∧ fees = (13 * 10 ^ 17, 0, 0)) ""
      require (defaultUnit w₁.setToken 1 = 10 ^ 18 ∧ defaultUnit w₁.setToken 2 = 0) "") =
      .ok () := by
    decide +kernel
  simp only [bind_eq_ok, require_eq_ok, exists_const] at h
  obtain ⟨w, hw, w₁, hw₁, fees, hfees, v, hv, ⟨hself, hcollateral, hloan⟩, ⟨hdebt, rfl⟩, hdefault⟩ := h
  obtain ⟨hset, hparams⟩ :=
    example_setting hw (.inr hw₁) (by rintro c (rfl | rfl) <;> assumption) hself
  have hindebted : w₁.setToken.externalRealUnit (params w₁).loanToken 50 < 0 := by
    rw [hparams]
    exact hdebt
  obtain ⟨_, _, _, _, _, _, _, _, _, hleft⟩ := issue_balanced hw₁ hset hindebted hfees hv
  rw [hparams] at hleft
  have hkept := (hleft 1 (.inl rfl)).1
  have hfew := (hleft 2 (.inr rfl)).2
  rw [hdefault.1, show 10 ^ 18 * (13 * 10 ^ 17) ⌈/⌉ preciseUnit = 13 * 10 ^ 17 by
    decide +kernel] at hkept
  rw [hdefault.2, Nat.zero_mul, Nat.add_zero] at hfew
  exact ⟨w, w₁, v, hw, hw₁, hv, hkept, hfew⟩

end MorphoLeverageModule

end IndexProtocol
