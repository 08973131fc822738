import IndexProtocol.Issuance.Fees
import IndexProtocol.Leverage.Hooks

/-! Issue and redeem through the DebtIssuanceModule, token by token.

The issuance module and the hooks take their amounts from the same units and
round them each in their own way. For the collateral and the loan token of the
position, held besides it at most by default, the four resolutions of equity and
debt come down to two equations on what the SetToken holds; the resolutions of
other components leave both tokens alone. -/
namespace IndexProtocol
open Evm PreciseUnitMath ModuleBase Morpho

namespace MorphoLeverageModule
open DebtIssuanceModule
variable {μ : Type} {morpho : MorphoBlue μ} {issuance leverage component : Address}
  {hooks : Address → ModuleIssuanceHook (LeverageState μ)} {w v : LeverageWorld μ}

/-- Nothing changed of the SetToken and of what it holds of the market's tokens, but for one
component. -/
structure Aside (component : Address) (w v : LeverageWorld μ) : Prop where
  kept : Kept w v
  balance : ∀ t, IsMarketToken w t → t ≠ component → v.balance t = w.balance t

theorem Kept.isMarketToken (h : Kept w v) {t : Address} :
    IsMarketToken v t ↔ IsMarketToken w t := by
  rw [IsMarketToken, IsMarketToken, h.params]

theorem Aside.refl (component : Address) (w : LeverageWorld μ) : Aside component w w :=
  ⟨.refl w, fun _ _ _ => rfl⟩

theorem Aside.trans {u : LeverageWorld μ} (h : Aside component w v) (h' : Aside component v u) :
    Aside component w u :=
  ⟨h.kept.trans h'.kept, fun t ht hne =>
    (h'.balance t (h.kept.isMarketToken.mpr ht) hne).trans (h.balance t ht hne)⟩

/-- A call that moves one token leaves the others. -/
theorem Aside.of_sameBut (h : w.SameBut v component) : Aside component w v := by
  refine ⟨⟨h.setToken, ?_⟩, fun t _ hne => h.balance_of_ne hne⟩
  rw [params, params, h.rest]

theorem Aside.of_paid {amount : Nat} (hkept : Kept w v)
    (h : Paid w.tokens v.tokens w.setToken.self component amount) :
    Aside component w v ∧ v.balance component + amount = w.balance component := by
  refine ⟨⟨hkept, fun t _ hne => ?_⟩, ?_⟩
  · have ht := h t
    rw [if_neg hne, Nat.add_zero] at ht
    rw [World.balance, World.balance, hkept.setToken, ht]
  · have ht := h component
    rw [if_pos rfl] at ht
    rwa [World.balance, World.balance, hkept.setToken]

theorem Aside.of_received {amount : Nat} (hkept : Kept w v)
    (h : Received w.tokens v.tokens w.setToken.self component amount) :
    Aside component w v ∧ v.balance component = w.balance component + amount := by
  have hback : Paid v.tokens w.tokens v.setToken.self component amount := by
    rw [hkept.setToken]
    exact h
  obtain ⟨haside, hbalance⟩ := Aside.of_paid ⟨hkept.setToken.symm, hkept.params.symm⟩ hback
  refine ⟨⟨hkept, fun t ht hne => (haside.balance t (hkept.isMarketToken.mpr ht) hne).symm⟩, ?_⟩
  exact hbalance.symm

/-- What issue and redeem find: a lawful Morpho, the module among the hooks, the market's tokens
held by default and by the module only, and modules of other components that leave the position
alone. -/
structure Setting (morpho : MorphoBlue μ) (leverage : Address)
    (hooks : Address → ModuleIssuanceHook (LeverageState μ)) (s : SetToken)
    (marketParams : MarketParams) : Prop where
  lawful : morpho.Lawful
  self : s.self ≠ morpho.self
  hook : hooks leverage = issuanceHook morpho leverage
  wellFormed : s.WellFormed
  only : ∀ c, c = marketParams.collateralToken ∨ c = marketParams.loanToken →
    ∀ m ∈ s.externalPositionModules c, m = leverage
  others : ∀ c, c ≠ marketParams.collateralToken → c ≠ marketParams.loanToken →
    ∀ m ∈ s.externalPositionModules c, m ≠ leverage →
    ∀ caller w v quantity isEquity, params w = marketParams →
      ((hooks m).componentIssueHook caller w quantity c isEquity = .ok v ∨
        (hooks m).componentRedeemHook caller w quantity c isEquity = .ok v) → Aside c w v

/-! ### The hooks of one component -/

section Component
variable {s : SetToken} {p : MarketParams} (hset : Setting morpho leverage hooks s p)
  (hparams : params w = p) {quantity : Nat}
include hset

/-- The modules with a position in one of the market's tokens. -/
theorem Setting.modules (hc : component = p.collateralToken ∨ component = p.loanToken) :
    s.externalPositionModules component = [] ∧ s.externalRealUnit component leverage = 0 ∨
      s.externalPositionModules component = [leverage] := by
  have hnodup := (hset.wellFormed.modules component).nodup
  have honly := hset.only component hc
  cases hl : s.externalPositionModules component with
  | nil =>
    refine .inl ⟨rfl, not_not.mp fun hne => ?_⟩
    have hmem := hset.wellFormed.mem_externalPositionModules.mpr
      (hset.wellFormed.external_ne_zero_iff.mpr hne)
    rw [hl] at hmem
    exact List.not_mem_nil hmem
  | cons m rest =>
    right
    rw [hl] at hnodup honly
    obtain rfl : m = leverage := honly m List.mem_cons_self
    cases rest with
    | nil => rfl
    | cons m' rest =>
      obtain rfl : m' = m := honly m' (List.mem_cons_of_mem _ List.mem_cons_self)
      simp at hnodup

/-- The equity and the debt of the market's tokens for one share. -/
theorem Setting.totalIssuanceUnits (hc : component = p.collateralToken ∨ component = p.loanToken)
    {units : IssuanceUnits} (h : getTotalIssuanceUnits s component = .ok units) :
    units = ⟨component, defaultUnit s component + equityUnit s leverage component,
      debtUnit s leverage component⟩ := by
  unfold defaultUnit equityUnit debtUnit
  have hdefault := hset.wellFormed.defaultRealUnit_nonneg (c := component)
  simp only [getTotalIssuanceUnits, bind_eq_ok, SetToken.getDefaultPositionRealUnit_eq_ok,
    SafeCast.toUint256_eq_ok, SignedSafeMath.mul_eq_ok, pure_eq_ok] at h
  obtain ⟨_, ⟨_, rfl⟩, cumulative, hcumulative, equity, hequity, _, ⟨_, rfl⟩, debt, hdebt, rfl⟩ := h
  rcases hset.modules hc with ⟨hmodules, hzero⟩ | hmodules
  · rw [hmodules] at hcumulative
    obtain rfl := Except.ok.inj hcumulative
    simp only [IssuanceUnits.mk.injEq, true_and]
    omega
  · rw [hmodules, runs_cons_eq_ok] at hcumulative
    obtain ⟨_, hstep, hcumulative⟩ := hcumulative
    obtain rfl := Except.ok.inj hcumulative
    simp only [cumulate, bind_eq_ok, SetToken.getExternalPositionRealUnit_eq_ok] at hstep
    obtain ⟨_, ⟨_, rfl⟩, hstep⟩ := hstep
    split_ifs at hstep with hpos
    · simp only [bind_eq_ok, SignedSafeMath.add_eq_ok, pure_eq_ok] at hstep
      obtain ⟨_, ⟨_, rfl⟩, rfl⟩ := hstep
      simp only [IssuanceUnits.mk.injEq, true_and]
      omega
    · simp only [bind_eq_ok, SignedSafeMath.add_eq_ok, pure_eq_ok] at hstep
      obtain ⟨_, ⟨_, rfl⟩, rfl⟩ := hstep
      simp only [IssuanceUnits.mk.injEq, true_and]
      omega

end Component

section Hooks
variable (hset : Setting morpho leverage hooks w.setToken (params w)) {quantity : Nat}
  {isIssue isEquity : Bool}
include hset

theorem Setting.keep (hkept : Kept w v) : Setting morpho leverage hooks v.setToken (params v) := by
  rw [hkept.setToken, hkept.params]
  exact hset

/-- The module's own hooks move the component and nothing else. -/
theorem Setting.own_aside {caller : Address}
    (h : (if isIssue then componentIssueHook morpho leverage caller w quantity component isEquity
      else componentRedeemHook morpho leverage caller w quantity component isEquity) = .ok v) :
    Aside component w v := by
  have hequity {moved : Prop} (hmoved : moved → Aside component w v)
      (hkept : Kept w v ∧ ((params w).collateralToken = component → moved) ∧
        ((params w).collateralToken ≠ component → v = w)) : Aside component w v := by
    by_cases hc : (params w).collateralToken = component
    · exact hmoved (hkept.2.1 hc)
    · rw [hkept.2.2 hc]
      exact .refl component w
  cases isIssue <;> cases isEquity
  · obtain ⟨hkept, _, hpaid⟩ := componentRedeemHook_debt hset.lawful hset.self h
    exact (Aside.of_paid hkept hpaid).1
  · have hmoved := componentRedeemHook_equity hset.lawful hset.self h
    exact hequity (fun hreceived => (Aside.of_received hmoved.1 hreceived).1) hmoved
  · obtain ⟨hkept, _, hreceived⟩ := componentIssueHook_debt hset.lawful hset.self h
    exact (Aside.of_received hkept hreceived).1
  · have hmoved := componentIssueHook_equity hset.lawful hset.self h
    exact hequity (fun hpaid => (Aside.of_paid hmoved.1 hpaid).1) hmoved

/-- The hooks of a component leave the other tokens of the market alone. -/
theorem Setting.hooks_aside
    (h : executeExternalPositionHooks issuance hooks w quantity component isIssue isEquity = .ok v) :
    Aside component w v := by
  refine (runs_induction (fun u rest => Aside component w u ∧
    ∀ m ∈ rest, m ∈ w.setToken.externalPositionModules component) ?_
    ⟨.refl component w, fun _ hm => hm⟩ h).1
  rintro u m rest t ⟨haside, hmem⟩ ht
  refine ⟨haside.trans ?_, fun m' hm' => hmem m' (List.mem_cons_of_mem m hm')⟩
  have hm := hmem m List.mem_cons_self
  by_cases hown : m = leverage
  · subst hown
    rw [hset.hook] at ht
    exact (hset.keep haside.kept).own_aside ht
  · have hcollateral : component ≠ (params w).collateralToken := fun hc =>
      hown (hset.only component (.inl hc) m hm)
    have hloan : component ≠ (params w).loanToken := fun hc =>
      hown (hset.only component (.inr hc) m hm)
    apply hset.others component hcollateral hloan m hm hown issuance u t quantity isEquity
      haside.kept.params
    cases isIssue
    · exact .inr ht
    · exact .inl ht

/-- The hooks of a token of the market: the module's own one, where it has a position. -/
theorem Setting.hooks_own (hc : IsMarketToken w component)
    (h : executeExternalPositionHooks issuance hooks w quantity component isIssue isEquity = .ok v) :
    w.setToken.externalRealUnit component leverage = 0 ∧ v = w ∨
      (if isIssue then componentIssueHook morpho leverage issuance w quantity component isEquity
        else componentRedeemHook morpho leverage issuance w quantity component isEquity) = .ok v := by
  unfold executeExternalPositionHooks at h
  rcases hset.modules hc with ⟨hmodules, hzero⟩ | hmodules
  · rw [hmodules] at h
    exact .inl ⟨hzero, (Except.ok.inj h).symm⟩
  · rw [hmodules, runs_cons_eq_ok] at h
    obtain ⟨u, hown, h⟩ := h
    obtain rfl := Except.ok.inj h
    rw [hset.hook] at hown
    exact .inr hown

/-- The side condition under which the module's equity in a token is the collateral. -/
def EquityIsCollateral (w : LeverageWorld μ) (leverage component : Address) : Prop :=
  component = (params w).collateralToken ∨ w.setToken.externalRealUnit component leverage ≤ 0

theorem Setting.redeemEquity (hc : IsMarketToken w component)
    (hsign : EquityIsCollateral w leverage component)
    (h : executeExternalPositionHooks issuance hooks w quantity component false true = .ok v) :
    v.balance component = w.balance component + hookEquity w.setToken leverage component quantity := by
  rcases hset.hooks_own hc h with ⟨hzero, rfl⟩ | hown
  · rw [hookEquity_of_nonpos hzero.le, Nat.add_zero]
  · obtain ⟨hkept, hreceived, hsame⟩ := componentRedeemHook_equity hset.lawful hset.self hown
    by_cases hcollateral : (params w).collateralToken = component
    · exact (Aside.of_received hkept (hreceived hcollateral)).2
    · obtain rfl := hsame hcollateral
      rw [hookEquity_of_nonpos (hsign.resolve_left (Ne.symm hcollateral)), Nat.add_zero]

theorem Setting.issueEquity (hc : IsMarketToken w component)
    (hsign : EquityIsCollateral w leverage component)
    (h : executeExternalPositionHooks issuance hooks w quantity component true true = .ok v) :
    v.balance component + hookEquity w.setToken leverage component quantity = w.balance component := by
  rcases hset.hooks_own hc h with ⟨hzero, rfl⟩ | hown
  · rw [hookEquity_of_nonpos hzero.le, Nat.add_zero]
  · obtain ⟨hkept, hpaid, hsame⟩ := componentIssueHook_equity hset.lawful hset.self hown
    by_cases hcollateral : (params w).collateralToken = component
    · exact (Aside.of_paid hkept (hpaid hcollateral)).2
    · obtain rfl := hsame hcollateral
      rw [hookEquity_of_nonpos (hsign.resolve_left (Ne.symm hcollateral)), Nat.add_zero]

theorem Setting.redeemDebt (hc : IsMarketToken w component)
    (h : executeExternalPositionHooks issuance hooks w quantity component false false = .ok v) :
    v.balance component + hookDebt w.setToken leverage component quantity = w.balance component := by
  rcases hset.hooks_own hc h with ⟨hzero, rfl⟩ | hown
  · rw [hookDebt_of_nonneg hzero.ge, Nat.add_zero]
  · obtain ⟨hkept, _, hpaid⟩ := componentRedeemHook_debt hset.lawful hset.self hown
    exact (Aside.of_paid hkept hpaid).2

theorem Setting.issueDebt (hc : IsMarketToken w component)
    (h : executeExternalPositionHooks issuance hooks w quantity component true false = .ok v) :
    v.balance component = w.balance component + hookDebt w.setToken leverage component quantity := by
  rcases hset.hooks_own hc h with ⟨hzero, rfl⟩ | hown
  · rw [hookDebt_of_nonneg hzero.ge, Nat.add_zero]
  · obtain ⟨hkept, _, hreceived⟩ := componentIssueHook_debt hset.lawful hset.self hown
    exact (Aside.of_received hkept hreceived).2

end Hooks

/-! ### The resolution of one component -/

section Resolution
variable (hset : Setting morpho leverage hooks w.setToken (params w)) {units : IssuanceUnits}
  {sender recipient : Address} {quantity : Nat}
include hset

/-- Redeemed equity is first withdrawn, then paid out. -/
theorem Setting.resolveEquity_redeem
    (h : resolveEquityPosition issuance hooks sender recipient quantity false w units = .ok v) :
    Aside units.component w v ∧
      (IsMarketToken w units.component → EquityIsCollateral w leverage units.component →
        hookEquity w.setToken leverage units.component quantity ≤ units.equity →
        v.balance units.component + units.equity =
          w.balance units.component + hookEquity w.setToken leverage units.component quantity) := by
  simp only [resolveEquityPosition, Bool.false_eq_true, if_false] at h
  split_ifs at h with hequity
  · simp only [bind_eq_ok] at h
    obtain ⟨u, hhooks, htransfer⟩ := h
    obtain ⟨hsame, _, hbalance⟩ := World.strictInvokeTransfer_balance htransfer
    refine ⟨(hset.hooks_aside hhooks).trans (.of_sameBut hsame), fun hc hsign _ => ?_⟩
    rw [hbalance, hset.redeemEquity hc hsign hhooks]
  · obtain rfl : w = v := by simpa using h
    refine ⟨.refl _ w, fun _ _ hle => ?_⟩
    omega

/-- Redeemed debt is first collected, then repaid. -/
theorem Setting.resolveDebt_redeem
    (h : resolveDebtPosition issuance hooks sender quantity false w units = .ok v) :
    Aside units.component w v ∧
      (IsMarketToken w units.component →
        hookDebt w.setToken leverage units.component quantity ≤ units.debt →
        v.balance units.component + hookDebt w.setToken leverage units.component quantity =
          w.balance units.component + units.debt) := by
  simp only [resolveDebtPosition, Bool.false_eq_true, if_false] at h
  split_ifs at h with hdebt
  · simp only [bind_eq_ok] at h
    obtain ⟨u, htransfer, hhooks⟩ := h
    obtain ⟨hsame, hbalance⟩ := World.transferFrom_balance htransfer
    have haside : Aside units.component w u := .of_sameBut hsame
    have hset' := hset.keep haside.kept
    refine ⟨haside.trans (hset'.hooks_aside hhooks), fun hc _ => ?_⟩
    rw [← hbalance, ← hset'.redeemDebt (haside.kept.isMarketToken.mpr hc) hhooks, hsame.setToken]
  · obtain rfl : w = v := by simpa using h
    refine ⟨.refl _ w, fun _ hle => ?_⟩
    omega

/-- Issued equity is first collected, then supplied. -/
theorem Setting.resolveEquity_issue
    (h : resolveEquityPosition issuance hooks sender recipient quantity true w units = .ok v) :
    Aside units.component w v ∧
      (IsMarketToken w units.component → EquityIsCollateral w leverage units.component →
        hookEquity w.setToken leverage units.component quantity ≤ units.equity →
        v.balance units.component + hookEquity w.setToken leverage units.component quantity =
          w.balance units.component + units.equity) := by
  simp only [resolveEquityPosition, if_true] at h
  split_ifs at h with hequity
  · simp only [bind_eq_ok] at h
    obtain ⟨u, htransfer, hhooks⟩ := h
    obtain ⟨hsame, hbalance⟩ := World.transferFrom_balance htransfer
    have haside : Aside units.component w u := .of_sameBut hsame
    have hset' := hset.keep haside.kept
    refine ⟨haside.trans (hset'.hooks_aside hhooks), fun hc hsign _ => ?_⟩
    have hsign' : EquityIsCollateral u leverage units.component := by
      rwa [EquityIsCollateral, haside.kept.params, hsame.setToken]
    rw [← hbalance, ← hset'.issueEquity (haside.kept.isMarketToken.mpr hc) hsign' hhooks,
      hsame.setToken]
  · obtain rfl : w = v := by simpa using h
    refine ⟨.refl _ w, fun _ _ hle => ?_⟩
    omega

/-- Issued debt is first borrowed, then paid out. -/
theorem Setting.resolveDebt_issue
    (h : resolveDebtPosition issuance hooks sender quantity true w units = .ok v) :
    Aside units.component w v ∧
      (IsMarketToken w units.component →
        hookDebt w.setToken leverage units.component quantity ≤ units.debt →
        v.balance units.component + units.debt =
          w.balance units.component + hookDebt w.setToken leverage units.component quantity) := by
  simp only [resolveDebtPosition, if_true] at h
  split_ifs at h with hdebt
  · simp only [bind_eq_ok] at h
    obtain ⟨u, hhooks, htransfer⟩ := h
    obtain ⟨hsame, _, hbalance⟩ := World.strictInvokeTransfer_balance htransfer
    refine ⟨(hset.hooks_aside hhooks).trans (.of_sameBut hsame), fun hc _ => ?_⟩
    rw [hbalance, hset.issueDebt hc hhooks]
  · obtain rfl : w = v := by simpa using h
    refine ⟨.refl _ w, fun _ hle => ?_⟩
    omega

end Resolution

/-! ### All components -/

/-- Resolutions of distinct components, one after the other: each token of the market is touched
by its own resolution only. -/
theorem resolve_runs {step : LeverageWorld μ → IssuanceUnits → Result (LeverageWorld μ)}
    {units : List IssuanceUnits} (C : IssuanceUnits → Prop) (loss gain : IssuanceUnits → Nat)
    (hnodup : (units.map IssuanceUnits.component).Nodup)
    (hstep : ∀ u a t, Kept w u → step u a = .ok t → Aside a.component u t ∧
      (IsMarketToken w a.component → C a →
        t.balance a.component + loss a = u.balance a.component + gain a))
    (h : runs step w units = .ok v) :
    Kept w v ∧ (∀ a ∈ units, IsMarketToken w a.component → C a →
        v.balance a.component + loss a = w.balance a.component + gain a) ∧
      ∀ t, IsMarketToken w t → t ∉ units.map IssuanceUnits.component →
        v.balance t = w.balance t := by
  classical
  let get (u : LeverageWorld μ) (t : Address) : Nat := if IsMarketToken w t then u.balance t else 0
  obtain ⟨hkept, hlisted, hother⟩ := runs_once IssuanceUnits.component get (Kept w)
    (fun a before after => IsMarketToken w a.component → C a → after + loss a = before + gain a)
    (fun u a t hkept ht => by
      obtain ⟨haside, hbalance⟩ := hstep u a t hkept ht
      refine ⟨hkept.trans haside.kept, fun hc hC => ?_, fun c hne => ?_⟩
      · simp only [get, if_pos hc]
        exact hbalance hc hC
      · simp only [get]
        split_ifs with hc
        · exact haside.balance c (hkept.isMarketToken.mpr hc) hne
        · rfl) hnodup (.refl w) h
  refine ⟨hkept, fun a ha hc hC => ?_, fun t ht hmem => ?_⟩
  · have hbalance := hlisted a ha hc hC
    simpa only [get, if_pos hc] using hbalance
  · have hbalance := hother t hmem
    simpa only [get, if_pos ht] using hbalance

/-! ### What is owed of all components -/

section Owed
variable {s : SetToken} {p : MarketParams} {quantity : Nat} {isIssue : Bool}
  {units : List IssuanceUnits}

/-- Every component is listed once, a token of the market with its default unit and the unit of
the module's position. -/
theorem Setting.required (hset : Setting morpho leverage hooks s p)
    (h : calculateRequiredComponentIssuanceUnits s quantity isIssue = .ok units) :
    units.map IssuanceUnits.component = s.components ∧
      ∀ a ∈ units, a.component = p.collateralToken ∨ a.component = p.loanToken →
        a.equity = (if isIssue then (defaultUnit s a.component + equityUnit s leverage a.component) *
            quantity ⌈/⌉ preciseUnit
          else (defaultUnit s a.component + equityUnit s leverage a.component) *
            quantity / preciseUnit) ∧
        a.debt = if isIssue then debtUnit s leverage a.component * quantity / preciseUnit
          else debtUnit s leverage a.component * quantity ⌈/⌉ preciseUnit := by
  obtain ⟨hmap, hmem⟩ := required_eq_ok h
  refine ⟨hmap, fun a ha hmarket => ?_⟩
  obtain ⟨total, htotal, hrequired⟩ := hmem a ha
  obtain ⟨_, hequity, hdebt⟩ := requiredUnits_eq_ok hrequired
  obtain rfl := hset.totalIssuanceUnits hmarket htotal
  exact ⟨hequity, hdebt⟩

/-- Components that are not listed have no unit of any kind. -/
theorem unlisted_units (h : s.WellFormed) (hc : component ∉ s.components) (module : Address) :
    defaultUnit s component = 0 ∧ equityUnit s module component = 0 ∧
      debtUnit s module component = 0 := by
  have hzero : s.externalRealUnit component module = 0 := not_not.mp fun hne => hc ?_
  · rw [defaultUnit, equityUnit, debtUnit, h.defaultRealUnit_of_notMem hc, hzero]
    exact ⟨rfl, rfl, rfl⟩
  have hmem := h.mem_externalPositionModules.mpr (h.external_ne_zero_iff.mpr hne)
  exact h.mem_components.mpr (.inr (List.ne_nil_of_mem hmem))

end Owed

/-! ### Phases -/

theorem Setting.of_same {s t : SetToken} {p : MarketParams}
    (hset : Setting morpho leverage hooks s p) (hsame : s.SamePositions t) :
    Setting morpho leverage hooks t p where
  lawful := hset.lawful
  self := hsame.self ▸ hset.self
  hook := hset.hook
  wellFormed := hset.wellFormed.of_same hsame
  only c hc m hm := by
    rw [SetToken.externalPositionModules, hsame.componentPositions] at hm
    exact hset.only c hc m hm
  others c hcollateral hloan m hm := by
    rw [SetToken.externalPositionModules, hsame.componentPositions] at hm
    exact hset.others c hcollateral hloan m hm

theorem Kept.equityIsCollateral (h : Kept w v) {c : Address} :
    EquityIsCollateral v leverage c ↔ EquityIsCollateral w leverage c := by
  rw [EquityIsCollateral, EquityIsCollateral, h.params, h.setToken]

section Balance
variable (hset : Setting morpho leverage hooks w.setToken (params w)) {units : List IssuanceUnits}
  {sender recipient : Address} {quantity : Nat} {isIssue : Bool}
  (hunits : calculateRequiredComponentIssuanceUnits w.setToken quantity isIssue = .ok units)
  (hc : IsMarketToken w component)
include hset hunits hc

/-- Resolutions of all components, for one token of the market, whether it is listed or not. -/
theorem Setting.resolve_market
    {step : LeverageWorld μ → IssuanceUnits → Result (LeverageWorld μ)}
    (C : IssuanceUnits → Prop) (loss gain : IssuanceUnits → Nat)
    (hstep : ∀ u a t, Kept w u → step u a = .ok t → Aside a.component u t ∧
      (IsMarketToken w a.component → C a →
        t.balance a.component + loss a = u.balance a.component + gain a))
    (h : runs step w units = .ok v) {lost gained : Nat}
    (hlisted : ∀ a ∈ units, a.component = component → C a ∧ loss a = lost ∧ gain a = gained)
    (hunlisted : defaultUnit w.setToken component = 0 → equityUnit w.setToken leverage component = 0 →
      debtUnit w.setToken leverage component = 0 → lost = gained) :
    Kept w v ∧ v.balance component + lost = w.balance component + gained := by
  have hmap := (hset.required hunits).1
  obtain ⟨hkept, hin, hout⟩ := resolve_runs C loss gain
    (hmap ▸ hset.wellFormed.components.nodup) hstep h
  refine ⟨hkept, ?_⟩
  by_cases hmem : component ∈ units.map IssuanceUnits.component
  · obtain ⟨a, ha, rfl⟩ := List.mem_map.mp hmem
    obtain ⟨hC, rfl, rfl⟩ := hlisted a ha rfl
    exact hin a ha hc hC
  · obtain ⟨hdefault, hequity, hdebt⟩ := unlisted_units hset.wellFormed (hmap ▸ hmem) leverage
    rw [hout component hc hmem, hunlisted hdefault hequity hdebt]

end Balance

section Phases
variable (hset : Setting morpho leverage hooks w.setToken (params w)) {units : List IssuanceUnits}
  {sender recipient : Address} {quantity : Nat} (hc : IsMarketToken w component)
include hset hc

theorem Setting.resolveDebts_redeem
    (hunits : calculateRequiredComponentIssuanceUnits w.setToken quantity false = .ok units)
    (h : resolveDebtPositions issuance hooks w sender quantity false units = .ok v) :
    Kept w v ∧ v.balance component + hookDebt w.setToken leverage component quantity =
      w.balance component + debtUnit w.setToken leverage component * quantity ⌈/⌉ preciseUnit := by
  have hamounts := (hset.required hunits).2
  apply hset.resolve_market hunits hc
    (fun a => hookDebt w.setToken leverage a.component quantity ≤ a.debt)
    (fun a => hookDebt w.setToken leverage a.component quantity) IssuanceUnits.debt ?_ h
  · rintro a ha rfl
    have hdebt := (hamounts a ha hc).2
    rw [if_neg Bool.false_ne_true] at hdebt
    exact ⟨hdebt ▸ Rounding.floor_le_ceil _ preciseUnit_pos, rfl, hdebt⟩
  · intro _ _ hzero
    simp [hookDebt, hzero]
  · intro u a t hu ht
    obtain ⟨haside, hbalance⟩ := (hset.keep hu).resolveDebt_redeem ht
    rw [hu.setToken] at hbalance
    exact ⟨haside, fun ha => hbalance (hu.isMarketToken.mpr ha)⟩

theorem Setting.resolveDebts_issue
    (hunits : calculateRequiredComponentIssuanceUnits w.setToken quantity true = .ok units)
    (h : resolveDebtPositions issuance hooks w sender quantity true units = .ok v) :
    Kept w v ∧ v.balance component = w.balance component := by
  have hamounts := (hset.required hunits).2
  suffices hbalance : Kept w v ∧ v.balance component +
      hookDebt w.setToken leverage component quantity = w.balance component +
        hookDebt w.setToken leverage component quantity from
    ⟨hbalance.1, Nat.add_right_cancel hbalance.2⟩
  apply hset.resolve_market hunits hc
    (fun a => hookDebt w.setToken leverage a.component quantity = a.debt)
    IssuanceUnits.debt (fun a => hookDebt w.setToken leverage a.component quantity) ?_ h ?_
    fun _ _ _ => rfl
  · intro u a t hu ht
    obtain ⟨haside, hbalance⟩ := (hset.keep hu).resolveDebt_issue ht
    rw [hu.setToken] at hbalance
    exact ⟨haside, fun ha heq => hbalance (hu.isMarketToken.mpr ha) heq.le⟩
  · rintro a ha rfl
    have hdebt := (hamounts a ha hc).2
    rw [if_pos rfl] at hdebt
    exact ⟨hdebt.symm, hdebt, rfl⟩

variable (hsign : EquityIsCollateral w leverage component)
include hsign

theorem Setting.resolveEquities_redeem
    (hunits : calculateRequiredComponentIssuanceUnits w.setToken quantity false = .ok units)
    (h : resolveEquityPositions issuance hooks w sender recipient quantity false units = .ok v) :
    Kept w v ∧ v.balance component +
        (defaultUnit w.setToken component + equityUnit w.setToken leverage component) * quantity /
          preciseUnit =
      w.balance component + hookEquity w.setToken leverage component quantity := by
  have hamounts := (hset.required hunits).2
  apply hset.resolve_market hunits hc
    (fun a => EquityIsCollateral w leverage a.component ∧
      hookEquity w.setToken leverage a.component quantity ≤ a.equity)
    IssuanceUnits.equity (fun a => hookEquity w.setToken leverage a.component quantity) ?_ h
  · rintro a ha rfl
    have hequity := (hamounts a ha hc).1
    rw [if_neg Bool.false_ne_true] at hequity
    refine ⟨⟨hsign, hequity ▸ Nat.div_le_div_right ?_⟩, hequity, rfl⟩
    exact Nat.mul_le_mul_right quantity (Nat.le_add_left _ _)
  · intro hdefault hzero _
    simp [hookEquity, hdefault, hzero]
  · intro u a t hu ht
    obtain ⟨haside, hbalance⟩ := (hset.keep hu).resolveEquity_redeem ht
    rw [hu.setToken] at hbalance
    exact ⟨haside, fun ha hC => hbalance (hu.isMarketToken.mpr ha)
      (hu.equityIsCollateral.mpr hC.1) hC.2⟩

theorem Setting.resolveEquities_issue
    (hunits : calculateRequiredComponentIssuanceUnits w.setToken quantity true = .ok units)
    (h : resolveEquityPositions issuance hooks w sender recipient quantity true units = .ok v) :
    Kept w v ∧ v.balance component + hookEquity w.setToken leverage component quantity =
      w.balance component +
        (defaultUnit w.setToken component + equityUnit w.setToken leverage component) * quantity ⌈/⌉
          preciseUnit := by
  have hamounts := (hset.required hunits).2
  apply hset.resolve_market hunits hc
    (fun a => EquityIsCollateral w leverage a.component ∧
      hookEquity w.setToken leverage a.component quantity ≤ a.equity)
    (fun a => hookEquity w.setToken leverage a.component quantity) IssuanceUnits.equity ?_ h
  · rintro a ha rfl
    have hequity := (hamounts a ha hc).1
    rw [if_pos rfl] at hequity
    refine ⟨⟨hsign, hequity ▸ ?_⟩, rfl, hequity⟩
    exact (Nat.div_le_div_right (Nat.mul_le_mul_right quantity (Nat.le_add_left _ _))).trans
      (Rounding.floor_le_ceil _ preciseUnit_pos)
  · intro hdefault hzero _
    simp [hookEquity, hdefault, hzero]
  · intro u a t hu ht
    obtain ⟨haside, hbalance⟩ := (hset.keep hu).resolveEquity_issue ht
    rw [hu.setToken] at hbalance
    exact ⟨haside, fun ha hC => hbalance (hu.isMarketToken.mpr ha)
      (hu.equityIsCollateral.mpr hC.1) hC.2⟩

end Phases

/-! ### Issue and redeem -/

section Balances
variable (hset : Setting morpho leverage hooks w.setToken (params w)) {sender recipient : Address}
  {quantity total managerFee protocolFee : Nat} (hc : IsMarketToken w component)
  (hsign : EquityIsCollateral w leverage component)
include hset hc hsign

/-- **What a redemption does to a token of the market.** The debt is collected rounded up and
repaid rounded down; the equity is withdrawn and paid out, each rounded down. -/
theorem Setting.redeem_balance
    (hfees : calculateTotalFees issuance w.setToken w.rest.issuanceSettings quantity false =
      .ok (total, managerFee, protocolFee))
    (h : redeemResolved issuance hooks w sender quantity recipient = .ok v) :
    v.balance component + hookDebt w.setToken leverage component total +
        (defaultUnit w.setToken component + equityUnit w.setToken leverage component) * total /
          preciseUnit =
      w.balance component + debtUnit w.setToken leverage component * total ⌈/⌉ preciseUnit +
        hookEquity w.setToken leverage component total := by
  simp only [redeemResolved, bind_eq_ok, World.callSetToken_eq_ok, SetToken.burn_eq_ok] at h
  obtain ⟨w₀, ⟨_, ⟨_, erc20, _, rfl⟩, hw₀⟩, fees, hfees', units, hunits, w₁, hdebts, w₂, hequities,
    hresolved⟩ := h
  -- Burning shares leaves the positions, the fees and the balances alone.
  have hset₀ : Setting morpho leverage hooks w₀.setToken (params w₀) := by
    subst hw₀
    exact hset.of_same ⟨rfl, rfl, rfl, rfl⟩
  obtain ⟨rfl⟩ : fees = (total, managerFee, protocolFee) := by
    subst hw₀
    exact Except.ok.inj (hfees'.symm.trans hfees)
  have hc₀ : IsMarketToken w₀ component := by
    subst hw₀
    exact hc
  have hsign₀ : EquityIsCollateral w₀ leverage component := by
    subst hw₀
    exact hsign
  obtain ⟨hkept, hdebt⟩ := hset₀.resolveDebts_redeem hc₀ hunits hdebts
  obtain ⟨_, hequity⟩ := (hset₀.keep hkept).resolveEquities_redeem (hkept.isMarketToken.mpr hc₀)
    (hkept.equityIsCollateral.mpr hsign₀) (hkept.setToken ▸ hunits) hequities
  rw [hkept.setToken] at hequity
  subst hw₀
  have hdebt' : w₁.balance component + hookDebt w.setToken leverage component total =
      w.balance component + debtUnit w.setToken leverage component * total ⌈/⌉ preciseUnit := hdebt
  have hequity' : w₂.balance component +
      (defaultUnit w.setToken component + equityUnit w.setToken leverage component) * total /
        preciseUnit = w₁.balance component + hookEquity w.setToken leverage component total := hequity
  rw [resolveFees_balance hresolved]
  omega

/-- **What an issuance does to a token of the market.** What is borrowed is paid out; the equity is
collected rounded up and supplied rounded down. -/
theorem Setting.issue_balance
    (hfees : calculateTotalFees issuance w.setToken w.rest.issuanceSettings quantity true =
      .ok (total, managerFee, protocolFee))
    (h : issueResolved issuance hooks w sender quantity recipient = .ok v) :
    v.balance component + hookEquity w.setToken leverage component total =
      w.balance component +
        (defaultUnit w.setToken component + equityUnit w.setToken leverage component) * total ⌈/⌉
          preciseUnit := by
  simp only [issueResolved, bind_eq_ok] at h
  obtain ⟨fees, hfees', units, hunits, w₁, hequities, w₂, hdebts, w₃, hresolved, hmint⟩ := h
  obtain rfl := Except.ok.inj (hfees.symm.trans hfees')
  obtain ⟨hkept, hequity⟩ := hset.resolveEquities_issue hc hsign hunits hequities
  obtain ⟨_, hdebt⟩ := (hset.keep hkept).resolveDebts_issue (hkept.isMarketToken.mpr hc)
    (hkept.setToken ▸ hunits) hdebts
  obtain ⟨s, hs, rfl⟩ := World.callSetToken_eq_ok.mp hmint
  have hself : ({ w₃ with setToken := s } : LeverageWorld μ).balance component =
      w₃.balance component := by
    rw [World.balance, World.balance, (SetToken.mint_same hs).self]
  rw [hself, resolveFees_balance hresolved, hdebt, hequity]

end Balances

end MorphoLeverageModule

end IndexProtocol
