import IndexProtocol.Issuance.DebtV2

/-! Where the shares of an issuance fee go.

The fee is a rate of the quantity, split between the manager and the protocol.
Both versions of the module compute components for the quantity with the whole
fee, and mint the fee in the end only if the manager gets a part of it. Where the
protocol takes all, the components of the fee are collected and no share is
minted for them. -/
namespace IndexProtocol
open Evm PreciseUnitMath ModuleBase

/-- `amount` was credited to the account, and the supply grew with it. -/
def Erc20.Credited (t t' : Erc20) (account : Address) (amount : Nat) : Prop :=
  t'.totalSupply = t.totalSupply + amount ∧
    ∀ a, t'.balanceOf a = t.balanceOf a + if a = account then amount else 0

theorem SetToken.mint_credited {s t : SetToken} {sender account : Address} {amount : Nat}
    (h : s.mint sender account amount = .ok t) :
    s.erc20.Credited t.erc20 account amount ∧ t.controller = s.controller := by
  obtain ⟨_, erc20, herc20, rfl⟩ := SetToken.mint_eq_ok.mp h
  obtain ⟨_, _, _, rfl⟩ := Erc20.mint_eq_ok.mp herc20
  refine ⟨⟨rfl, fun a => ?_⟩, rfl⟩
  by_cases ha : a = account
  · simp [Erc20.balanceOf, ha]
  · simp [Erc20.balanceOf, ha]

/-- What was burned, put back, is what was there. -/
theorem SetToken.burn_credited {s t : SetToken} {sender account : Address} {amount : Nat}
    (h : s.burn sender account amount = .ok t) :
    t.erc20.Credited s.erc20 account amount ∧ t.controller = s.controller := by
  obtain ⟨_, erc20, herc20, rfl⟩ := SetToken.burn_eq_ok.mp h
  obtain ⟨_, hbalance, hsupply, rfl⟩ := Erc20.burn_eq_ok.mp herc20
  refine ⟨⟨(Nat.sub_add_cancel hsupply).symm, fun a => ?_⟩, rfl⟩
  by_cases ha : a = account
  · simp [Erc20.balanceOf, ha, Nat.sub_add_cancel hbalance]
  · simp [Erc20.balanceOf, ha]

/-! ### What leaves the shares alone -/

section Kept
variable {χ : Type} {w v u : IssuanceWorld χ}

/-- Nothing changed that the shares and the fees depend on. -/
structure SharesKept (w v : IssuanceWorld χ) : Prop where
  erc20 : v.setToken.erc20 = w.setToken.erc20
  controller : v.setToken.controller = w.setToken.controller
  issuanceSettings : v.rest.issuanceSettings = w.rest.issuanceSettings

theorem SharesKept.refl (w : IssuanceWorld χ) : SharesKept w w := ⟨rfl, rfl, rfl⟩

theorem SharesKept.trans (h : SharesKept w v) (h' : SharesKept v u) : SharesKept w u :=
  ⟨h'.erc20.trans h.erc20, h'.controller.trans h.controller,
    h'.issuanceSettings.trans h.issuanceSettings⟩

theorem SharesKept.of_sameBut {token : Address} (h : w.SameBut v token) : SharesKept w v := by
  refine ⟨?_, ?_, ?_⟩
  · rw [h.setToken]
  · rw [h.setToken]
  · rw [h.rest]

/-- A module whose hooks move components and edit positions, and leave the shares and the settings
of the issuance module to that module. -/
structure ModuleIssuanceHook.KeepsShares (hook : ModuleIssuanceHook χ) : Prop where
  moduleIssueHook : ∀ caller w quantity v, hook.moduleIssueHook caller w quantity = .ok v →
    SharesKept w v
  moduleRedeemHook : ∀ caller w quantity v, hook.moduleRedeemHook caller w quantity = .ok v →
    SharesKept w v
  componentIssueHook : ∀ caller w quantity component isEquity v,
    hook.componentIssueHook caller w quantity component isEquity = .ok v → SharesKept w v
  componentRedeemHook : ∀ caller w quantity component isEquity v,
    hook.componentRedeemHook caller w quantity component isEquity = .ok v → SharesKept w v

/-- A loop of steps that leave the shares alone. -/
theorem runs_sharesKept {α : Type} {step : IssuanceWorld χ → α → Result (IssuanceWorld χ)}
    (hstep : ∀ w a v, step w a = .ok v → SharesKept w v) {as : List α}
    (h : runs step w as = .ok v) : SharesKept w v :=
  runs_invariant (SharesKept w) (fun u a t hu ht => hu.trans (hstep u a t ht)) (.refl w) h

theorem safeTransferFrom_kept {caller token sender recipient : Address} {quantity : Nat}
    (h : SafeERC20.safeTransferFrom w caller token sender recipient quantity = .ok v) :
    SharesKept w v :=
  .of_sameBut (World.callToken_sameBut h).1

theorem invokeTransfer_kept {module token recipient : Address} {quantity : Nat}
    (h : Invoke.invokeTransfer w module token recipient quantity = .ok v) : SharesKept w v := by
  unfold Invoke.invokeTransfer World.invoke at h
  split_ifs at h
  · simp only [bind_eq_ok] at h
    obtain ⟨_, _, hcall⟩ := h
    exact .of_sameBut (World.callToken_sameBut hcall).1
  · obtain rfl : w = v := by simpa using h
    exact .refl w

end Kept

section Hooks
variable {χ : Type} {module : Address} {hooks : Address → ModuleIssuanceHook χ}
  (hkeep : ∀ m, (hooks m).KeepsShares) {w v : IssuanceWorld χ} {sender recipient : Address}
  {quantity : Nat} {isIssue isEquity : Bool}
include hkeep

theorem executeExternalPositionHooks_kept {component : Address}
    (h : DebtIssuanceModule.executeExternalPositionHooks module hooks w quantity component isIssue
      isEquity = .ok v) : SharesKept w v := by
  refine runs_sharesKept (fun w m v hstep => ?_) h
  cases isIssue with
  | false => exact (hkeep m).componentRedeemHook module w quantity component isEquity v hstep
  | true => exact (hkeep m).componentIssueHook module w quantity component isEquity v hstep

theorem callModulePreIssueHooks_kept
    (h : DebtIssuanceModule.callModulePreIssueHooks module hooks w quantity = .ok v) :
    SharesKept w v :=
  runs_sharesKept (fun w m v => (hkeep m).moduleIssueHook module w quantity v) h

theorem callModulePreRedeemHooks_kept
    (h : DebtIssuanceModule.callModulePreRedeemHooks module hooks w quantity = .ok v) :
    SharesKept w v :=
  runs_sharesKept (fun w m v => (hkeep m).moduleRedeemHook module w quantity v) h

namespace DebtIssuanceModule

theorem resolveEquityPosition_kept {units : IssuanceUnits}
    (h : resolveEquityPosition module hooks sender recipient quantity isIssue w units = .ok v) :
    SharesKept w v := by
  unfold resolveEquityPosition at h
  split_ifs at h
  · simp only [bind_eq_ok] at h
    obtain ⟨_, htransfer, hhooks⟩ := h
    exact (SharesKept.of_sameBut (World.transferFrom_moved htransfer).1).trans
      (executeExternalPositionHooks_kept hkeep hhooks)
  · simp only [bind_eq_ok] at h
    obtain ⟨_, hhooks, htransfer⟩ := h
    exact (executeExternalPositionHooks_kept hkeep hhooks).trans
      (.of_sameBut (World.strictInvokeTransfer_balance htransfer).1)
  · obtain rfl : w = v := by simpa using h
    exact .refl w

theorem resolveDebtPosition_kept {units : IssuanceUnits}
    (h : resolveDebtPosition module hooks sender quantity isIssue w units = .ok v) :
    SharesKept w v := by
  unfold resolveDebtPosition at h
  split_ifs at h
  · simp only [bind_eq_ok] at h
    obtain ⟨_, hhooks, htransfer⟩ := h
    exact (executeExternalPositionHooks_kept hkeep hhooks).trans
      (.of_sameBut (World.strictInvokeTransfer_balance htransfer).1)
  · simp only [bind_eq_ok] at h
    obtain ⟨_, htransfer, hhooks⟩ := h
    exact (SharesKept.of_sameBut (World.transferFrom_moved htransfer).1).trans
      (executeExternalPositionHooks_kept hkeep hhooks)
  · obtain rfl : w = v := by simpa using h
    exact .refl w

end DebtIssuanceModule

namespace DebtIssuanceModuleV2
variable {initialSetSupply finalSetSupply : Nat}

theorem resolveEquityPosition_kept {units : IssuanceUnits}
    (h : resolveEquityPosition module hooks sender recipient quantity isIssue initialSetSupply
      finalSetSupply w units = .ok v) : SharesKept w v := by
  unfold resolveEquityPosition at h
  split_ifs at h
  · simp only [bind_eq_ok] at h
    obtain ⟨_, htransfer, _, _, hhooks⟩ := h
    exact (safeTransferFrom_kept htransfer).trans (executeExternalPositionHooks_kept hkeep hhooks)
  · simp only [bind_eq_ok, pure_eq_ok] at h
    obtain ⟨_, hhooks, _, htransfer, _, _, rfl⟩ := h
    exact (executeExternalPositionHooks_kept hkeep hhooks).trans (invokeTransfer_kept htransfer)
  · obtain rfl : w = v := by simpa using h
    exact .refl w

theorem resolveDebtPosition_kept {units : IssuanceUnits}
    (h : resolveDebtPosition module hooks sender quantity isIssue initialSetSupply finalSetSupply w
      units = .ok v) : SharesKept w v := by
  unfold resolveDebtPosition at h
  split_ifs at h
  · simp only [bind_eq_ok, pure_eq_ok] at h
    obtain ⟨_, hhooks, _, htransfer, _, _, rfl⟩ := h
    exact (executeExternalPositionHooks_kept hkeep hhooks).trans (invokeTransfer_kept htransfer)
  · simp only [bind_eq_ok] at h
    obtain ⟨_, htransfer, _, _, hhooks⟩ := h
    exact (safeTransferFrom_kept htransfer).trans (executeExternalPositionHooks_kept hkeep hhooks)
  · obtain rfl : w = v := by simpa using h
    exact .refl w

end DebtIssuanceModuleV2

end Hooks

/-! ### The fee -/

/-- The shares that the manager's rate takes of the quantity. -/
def totalFee (settings : IssuanceSettings) (isIssue : Bool) (quantity : Nat) : Nat :=
  (if isIssue then settings.managerIssueFee else settings.managerRedeemFee) * quantity / preciseUnit

/-- The protocol's part of the fee, in precise units. -/
def protocolFeeSplit (module : Address) (s : SetToken) : Nat :=
  s.controller.fees module DebtIssuanceModule.protocolFeeSplitIndex

section Fee
variable {χ : Type} {module : Address} {w v : IssuanceWorld χ} {isIssue : Bool}
  {quantity total managerFee protocolFee : Nat}

theorem calculateTotalFees_eq_ok {s : SetToken} {settings : IssuanceSettings}
    (h : DebtIssuanceModule.calculateTotalFees module s settings quantity isIssue =
      .ok (total, managerFee, protocolFee)) :
    totalFee settings isIssue quantity * protocolFeeSplit module s / preciseUnit = protocolFee ∧
      managerFee + protocolFee = totalFee settings isIssue quantity ∧
      if isIssue then total = quantity + totalFee settings isIssue quantity
        else total + totalFee settings isIssue quantity = quantity := by
  simp only [DebtIssuanceModule.calculateTotalFees, bind_eq_ok, preciseMul_eq_ok, SafeMath.sub_eq_ok,
    pure_eq_ok, Prod.mk.injEq] at h
  obtain ⟨fee, ⟨_, hfee⟩, protocol, ⟨_, hprotocol⟩, manager, ⟨hle, hmanager⟩, _, htotal, rfl, rfl,
    rfl⟩ := h
  have hfee' : totalFee settings isIssue quantity = fee := hfee
  rw [hfee']
  refine ⟨hprotocol, by omega, ?_⟩
  cases isIssue with
  | false =>
    rw [if_neg Bool.false_ne_true, SafeMath.sub_eq_ok] at htotal
    rw [if_neg Bool.false_ne_true]
    omega
  | true =>
    rw [if_pos rfl, SafeMath.add_eq_ok] at htotal
    rw [if_pos rfl]
    exact htotal.2.symm

/-- The fees depend on the Controller and the settings alone. -/
theorem SharesKept.calculateTotalFees (h : SharesKept w v) :
    DebtIssuanceModule.calculateTotalFees module v.setToken v.rest.issuanceSettings quantity isIssue =
      DebtIssuanceModule.calculateTotalFees module w.setToken w.rest.issuanceSettings quantity
        isIssue := by
  rw [DebtIssuanceModule.calculateTotalFees, DebtIssuanceModule.calculateTotalFees, h.controller,
    h.issuanceSettings]

/-- The manager's part is nothing where there is no fee or the protocol takes all of it. -/
theorem managerFee_eq_zero_iff {fee split : Nat} (hsplit : split ≤ preciseUnit)
    (hsum : managerFee + protocolFee = fee) (hprotocol : fee * split / preciseUnit = protocolFee) :
    managerFee = 0 ↔ fee = 0 ∨ split = preciseUnit := by
  constructor
  · intro hzero
    by_contra hnot
    rw [not_or] at hnot
    have hlt : fee * split / preciseUnit < fee := by
      refine Nat.div_lt_of_lt_mul ?_
      rw [Nat.mul_comm preciseUnit]
      exact Nat.mul_lt_mul_of_pos_left (lt_of_le_of_ne hsplit hnot.2) (Nat.pos_of_ne_zero hnot.1)
    omega
  · intro h
    cases h with
    | inl hfee => omega
    | inr hall =>
      rw [hall, Nat.mul_div_cancel _ preciseUnit_pos] at hprotocol
      omega

theorem callMint_credited {account : Address} {amount : Nat}
    (h : w.callSetToken (·.mint module account amount) = .ok v) :
    w.setToken.erc20.Credited v.setToken.erc20 account amount ∧
      v.setToken.controller = w.setToken.controller ∧ v.rest = w.rest := by
  obtain ⟨s, hs, rfl⟩ := World.callSetToken_eq_ok.mp h
  obtain ⟨hcredited, hcontroller⟩ := SetToken.mint_credited hs
  exact ⟨hcredited, hcontroller, rfl⟩

/-- Both parts are minted if the manager's part is not nothing, and else none. -/
theorem resolveFees_credited
    (h : DebtIssuanceModule.resolveFees module w managerFee protocolFee = .ok v) :
    (0 < managerFee → v.setToken.totalSupply = w.setToken.totalSupply + (managerFee + protocolFee) ∧
      ∀ a, v.setToken.erc20.balanceOf a = w.setToken.erc20.balanceOf a +
        (if a = w.rest.issuanceSettings.feeRecipient then managerFee else 0) +
        (if a = w.setToken.controller.feeRecipient then protocolFee else 0)) ∧
      (managerFee = 0 → v = w) := by
  unfold DebtIssuanceModule.resolveFees at h
  split_ifs at h with hmanager hprotocol
  · refine ⟨fun _ => ?_, fun hzero => absurd hzero hmanager.ne'⟩
    simp only [bind_eq_ok] at h
    obtain ⟨w₁, hfirst, hsecond⟩ := h
    obtain ⟨⟨hsupply, hbalance⟩, hcontroller, hrest⟩ := callMint_credited hfirst
    obtain ⟨⟨hsupply', hbalance'⟩, _⟩ := callMint_credited hsecond
    refine ⟨?_, fun a => ?_⟩
    · rw [SetToken.totalSupply, hsupply', hsupply, Nat.add_assoc]
      rfl
    · rw [hbalance', hbalance, hcontroller]
  · refine ⟨fun _ => ?_, fun hzero => absurd hzero hmanager.ne'⟩
    simp only [bind_eq_ok, pure_eq_ok] at h
    obtain ⟨w₁, hfirst, rfl⟩ := h
    obtain ⟨⟨hsupply, hbalance⟩, _⟩ := callMint_credited hfirst
    obtain rfl : protocolFee = 0 := by omega
    refine ⟨hsupply, fun a => ?_⟩
    rw [hbalance, ite_self, Nat.add_zero]
  · obtain rfl : w = v := by simpa using h
    exact ⟨fun hpos => absurd hpos hmanager, fun _ => rfl⟩

/-- Minting fees changes neither the positions nor what the SetToken holds. -/
theorem DebtIssuanceModule.resolveFees_same
    (h : DebtIssuanceModule.resolveFees module w managerFee protocolFee = .ok v) :
    w.setToken.SamePositions v.setToken ∧ v.tokens = w.tokens := by
  have hmint {w v : IssuanceWorld χ} {account : Address} {amount : Nat}
      (h : w.callSetToken (·.mint module account amount) = .ok v) :
      w.setToken.SamePositions v.setToken ∧ v.tokens = w.tokens := by
    obtain ⟨s, hs, rfl⟩ := World.callSetToken_eq_ok.mp h
    exact ⟨SetToken.mint_same hs, rfl⟩
  unfold DebtIssuanceModule.resolveFees at h
  split_ifs at h with hmanager hprotocol
  · simp only [bind_eq_ok] at h
    obtain ⟨u, hu, h⟩ := h
    exact ⟨(hmint hu).1.trans (hmint h).1, (hmint h).2.trans (hmint hu).2⟩
  · simp only [bind_eq_ok, pure_eq_ok] at h
    obtain ⟨u, hu, rfl⟩ := h
    exact hmint hu
  · obtain rfl : w = v := by simpa using h
    exact ⟨.refl _, rfl⟩

theorem DebtIssuanceModule.resolveFees_balance
    (h : DebtIssuanceModule.resolveFees module w managerFee protocolFee = .ok v) (t : Address) :
    v.balance t = w.balance t := by
  obtain ⟨hsame, htokens⟩ := DebtIssuanceModule.resolveFees_same h
  rw [World.balance, World.balance, hsame.self, htokens]

/-- The whole fee is minted exactly where there is none or the protocol leaves the manager a part. -/
theorem resolveFees_whole {fee split : Nat} (hsplit : split ≤ preciseUnit)
    (hsum : managerFee + protocolFee = fee) (hprotocol : fee * split / preciseUnit = protocolFee)
    (h : DebtIssuanceModule.resolveFees module w managerFee protocolFee = .ok v) :
    (v.setToken.totalSupply = w.setToken.totalSupply + fee → fee = 0 ∨ split < preciseUnit) ∧
      (fee = 0 ∨ split < preciseUnit → v.setToken.totalSupply = w.setToken.totalSupply + fee ∧
        ∀ a, v.setToken.erc20.balanceOf a = w.setToken.erc20.balanceOf a +
          (if a = w.rest.issuanceSettings.feeRecipient then managerFee else 0) +
          (if a = w.setToken.controller.feeRecipient then protocolFee else 0)) := by
  obtain ⟨hminted, hnone⟩ := resolveFees_credited h
  have hzero := managerFee_eq_zero_iff hsplit hsum hprotocol
  rcases Nat.eq_zero_or_pos managerFee with hmanager | hmanager
  · obtain rfl := hnone hmanager
    refine ⟨fun hsupply => .inl (by omega), fun hfee => ?_⟩
    have hfee' : fee = 0 := by
      cases hzero.mp hmanager with
      | inl hfee' => exact hfee'
      | inr hall => omega
    obtain rfl : protocolFee = 0 := by omega
    refine ⟨by omega, fun a => ?_⟩
    rw [hmanager, ite_self, ite_self]
    rfl
  · have hwhole : fee = 0 ∨ split < preciseUnit := by
      have hne : ¬(fee = 0 ∨ split = preciseUnit) := fun hor => hmanager.ne' (hzero.mpr hor)
      omega
    rw [hsum] at hminted
    exact ⟨fun _ => hwhole, fun _ => hminted hmanager⟩

end Fee

/-! ### Issue and redeem, in both versions -/

inductive IssuanceVersion where
  | v1
  | v2
  deriving DecidableEq, Repr

namespace IssuanceVersion
variable {χ : Type} (version : IssuanceVersion) (module : Address)
  (hooks : Address → ModuleIssuanceHook χ)

def issue (managerHooks : Address → PreIssueHook (IssuanceState χ)) (w : IssuanceWorld χ)
    (sender : Address) (quantity : Nat) (recipient : Address) : Result (IssuanceWorld χ) :=
  match version with
  | v1 => DebtIssuanceModule.issue module hooks managerHooks w sender quantity recipient
  | v2 => DebtIssuanceModuleV2.issue module hooks managerHooks w sender quantity recipient

def redeem (w : IssuanceWorld χ) (sender : Address) (quantity : Nat) (recipient : Address) :
    Result (IssuanceWorld χ) :=
  match version with
  | v1 => DebtIssuanceModule.redeem module hooks w sender quantity recipient
  | v2 => DebtIssuanceModuleV2.redeem module hooks w sender quantity recipient

section Settled
variable {version module hooks} {w v : IssuanceWorld χ} {sender recipient : Address} {quantity : Nat}
  (hkeep : ∀ m, (hooks m).KeepsShares)
include hkeep

/-- Up to the fees, issuing leaves the shares alone. -/
theorem issue_eq {managerHooks : Address → PreIssueHook (IssuanceState χ)}
    (h : version.issue module hooks managerHooks w sender quantity recipient = .ok v) :
    ∃ w₁ w₂ total managerFee protocolFee, SharesKept w w₁ ∧
      DebtIssuanceModule.calculateTotalFees module w.setToken w.rest.issuanceSettings quantity true =
        .ok (total, managerFee, protocolFee) ∧
      DebtIssuanceModule.resolveFees module w₁ managerFee protocolFee = .ok w₂ ∧
      w₂.callSetToken (·.mint module recipient quantity) = .ok v := by
  cases version with
  | v1 =>
    simp only [issue, DebtIssuanceModule.issue, DebtIssuanceModule.issueResolved, bind_eq_ok] at h
    obtain ⟨_, _, _, _, _, _, u, hpre, ⟨total, managerFee, protocolFee⟩, hfees, _, _, u₁, hequities,
      w₁, hdebts, w₂, hresolved, hmint⟩ := h
    have hkept := callModulePreIssueHooks_kept hkeep hpre
    have hequity : SharesKept u u₁ := runs_sharesKept
      (fun _ _ _ => DebtIssuanceModule.resolveEquityPosition_kept hkeep) hequities
    have hdebt : SharesKept u₁ w₁ := runs_sharesKept
      (fun _ _ _ => DebtIssuanceModule.resolveDebtPosition_kept hkeep) hdebts
    exact ⟨w₁, w₂, total, managerFee, protocolFee, (hkept.trans hequity).trans hdebt,
      hkept.calculateTotalFees ▸ hfees, hresolved, hmint⟩
  | v2 =>
    simp only [issue, DebtIssuanceModuleV2.issue, DebtIssuanceModuleV2.issueResolved, bind_eq_ok] at h
    obtain ⟨_, _, _, _, _, _, u, hpre, ⟨total, managerFee, protocolFee⟩, hfees, _, _, _, _, u₁,
      hequities, w₁, hdebts, w₂, hresolved, hmint⟩ := h
    have hkept := callModulePreIssueHooks_kept hkeep hpre
    have hequity : SharesKept u u₁ := runs_sharesKept
      (fun _ _ _ => DebtIssuanceModuleV2.resolveEquityPosition_kept hkeep) hequities
    have hdebt : SharesKept u₁ w₁ := runs_sharesKept
      (fun _ _ _ => DebtIssuanceModuleV2.resolveDebtPosition_kept hkeep) hdebts
    exact ⟨w₁, w₂, total, managerFee, protocolFee, (hkept.trans hequity).trans hdebt,
      hkept.calculateTotalFees ▸ hfees, hresolved, hmint⟩

/-- Between the burn and the fees, redeeming leaves the shares alone. -/
theorem redeem_eq (h : version.redeem module hooks w sender quantity recipient = .ok v) :
    ∃ w₀ w₁ w₂ total managerFee protocolFee, SharesKept w w₀ ∧
      w₀.callSetToken (·.burn module sender quantity) = .ok w₁ ∧ SharesKept w₁ w₂ ∧
      DebtIssuanceModule.calculateTotalFees module w.setToken w.rest.issuanceSettings quantity false =
        .ok (total, managerFee, protocolFee) ∧
      DebtIssuanceModule.resolveFees module w₂ managerFee protocolFee = .ok v := by
  have hburned {w₀ w₁ : IssuanceWorld χ}
      (hburn : w₀.callSetToken (·.burn module sender quantity) = .ok w₁) :
      w₁.setToken.controller = w₀.setToken.controller ∧ w₁.rest = w₀.rest := by
    obtain ⟨s, hs, rfl⟩ := World.callSetToken_eq_ok.mp hburn
    exact ⟨(SetToken.burn_credited hs).2, rfl⟩
  have hfees_eq {w₀ w₁ : IssuanceWorld χ} (hkept : SharesKept w w₀)
      (hburn : w₀.callSetToken (·.burn module sender quantity) = .ok w₁) :
      DebtIssuanceModule.calculateTotalFees module w₁.setToken w₁.rest.issuanceSettings quantity
          false =
        DebtIssuanceModule.calculateTotalFees module w.setToken w.rest.issuanceSettings quantity
          false := by
    rw [← hkept.calculateTotalFees, DebtIssuanceModule.calculateTotalFees,
      DebtIssuanceModule.calculateTotalFees, (hburned hburn).1, (hburned hburn).2]
  cases version with
  | v1 =>
    simp only [redeem, DebtIssuanceModule.redeem, DebtIssuanceModule.redeemResolved, bind_eq_ok] at h
    obtain ⟨_, _, _, _, w₀, hpre, w₁, hburn, ⟨total, managerFee, protocolFee⟩, hfees, _, _, u, hdebts,
      w₂, hequities, hresolved⟩ := h
    have hkept := callModulePreRedeemHooks_kept hkeep hpre
    have hdebt : SharesKept w₁ u := runs_sharesKept
      (fun _ _ _ => DebtIssuanceModule.resolveDebtPosition_kept hkeep) hdebts
    have hequity : SharesKept u w₂ := runs_sharesKept
      (fun _ _ _ => DebtIssuanceModule.resolveEquityPosition_kept hkeep) hequities
    exact ⟨w₀, w₁, w₂, total, managerFee, protocolFee, hkept, hburn, hdebt.trans hequity,
      hfees_eq hkept hburn ▸ hfees, hresolved⟩
  | v2 =>
    simp only [redeem, DebtIssuanceModuleV2.redeem, DebtIssuanceModuleV2.redeemResolved,
      bind_eq_ok] at h
    obtain ⟨_, _, _, _, w₀, hpre, w₁, hburn, ⟨total, managerFee, protocolFee⟩, hfees, _, _, _, _, u,
      hdebts, w₂, hequities, hresolved⟩ := h
    have hkept := callModulePreRedeemHooks_kept hkeep hpre
    have hdebt : SharesKept w₁ u := runs_sharesKept
      (fun _ _ _ => DebtIssuanceModuleV2.resolveDebtPosition_kept hkeep) hdebts
    have hequity : SharesKept u w₂ := runs_sharesKept
      (fun _ _ _ => DebtIssuanceModuleV2.resolveEquityPosition_kept hkeep) hequities
    exact ⟨w₀, w₁, w₂, total, managerFee, protocolFee, hkept, hburn, hdebt.trans hequity,
      hfees_eq hkept hburn ▸ hfees, hresolved⟩

/-- The supply grew by the quantity that components were computed for, and the two recipients got
the whole fee. -/
def IssueSettled (module : Address) (w v : IssuanceWorld χ) (recipient : Address) (quantity : Nat) :
    Prop :=
  ∃ total managerFee protocolFee,
    DebtIssuanceModule.calculateTotalFees module w.setToken w.rest.issuanceSettings quantity true =
      .ok (total, managerFee, protocolFee) ∧
    managerFee + protocolFee = totalFee w.rest.issuanceSettings true quantity ∧
    total = quantity + totalFee w.rest.issuanceSettings true quantity ∧
    v.setToken.totalSupply = w.setToken.totalSupply + total ∧
    ∀ a, v.setToken.erc20.balanceOf a = w.setToken.erc20.balanceOf a +
      (if a = recipient then quantity else 0) +
      (if a = w.rest.issuanceSettings.feeRecipient then managerFee else 0) +
      (if a = w.setToken.controller.feeRecipient then protocolFee else 0)

/-- The same of a redemption, where the supply shrinks. -/
def RedeemSettled (module : Address) (w v : IssuanceWorld χ) (sender : Address) (quantity : Nat) :
    Prop :=
  ∃ total managerFee protocolFee,
    DebtIssuanceModule.calculateTotalFees module w.setToken w.rest.issuanceSettings quantity false =
      .ok (total, managerFee, protocolFee) ∧
    managerFee + protocolFee = totalFee w.rest.issuanceSettings false quantity ∧
    total + totalFee w.rest.issuanceSettings false quantity = quantity ∧
    v.setToken.totalSupply + total = w.setToken.totalSupply ∧
    ∀ a, v.setToken.erc20.balanceOf a + (if a = sender then quantity else 0) =
      w.setToken.erc20.balanceOf a +
      (if a = w.rest.issuanceSettings.feeRecipient then managerFee else 0) +
      (if a = w.setToken.controller.feeRecipient then protocolFee else 0)

/-- The fee of an issuance is minted whole exactly where the protocol does not take all of it. -/
theorem issue_settled_iff {managerHooks : Address → PreIssueHook (IssuanceState χ)}
    (hsplit : protocolFeeSplit module w.setToken ≤ preciseUnit)
    (h : version.issue module hooks managerHooks w sender quantity recipient = .ok v) :
    IssueSettled module w v recipient quantity ↔
      totalFee w.rest.issuanceSettings true quantity = 0 ∨
        protocolFeeSplit module w.setToken < preciseUnit := by
  obtain ⟨w₁, w₂, total, managerFee, protocolFee, hkept, hfees, hresolved, hmint⟩ := issue_eq hkeep h
  obtain ⟨hprotocol, hsum, htotal⟩ := calculateTotalFees_eq_ok hfees
  rw [if_pos rfl] at htotal
  obtain ⟨⟨hsupply, hbalance⟩, _, _⟩ := callMint_credited hmint
  obtain ⟨hwhole, hminted⟩ := resolveFees_whole hsplit hsum hprotocol hresolved
  have hkeptSupply : w₁.setToken.totalSupply = w.setToken.totalSupply :=
    congrArg Erc20.totalSupply hkept.erc20
  rw [hkeptSupply] at hwhole hminted
  have hsupply' : v.setToken.totalSupply = w₂.setToken.totalSupply + quantity := hsupply
  constructor
  · rintro ⟨total', _, _, _, _, htotal', hsettled, _⟩
    exact hwhole (by omega)
  · intro hcondition
    obtain ⟨hfeeSupply, hfeeBalance⟩ := hminted hcondition
    refine ⟨total, managerFee, protocolFee, hfees, hsum, htotal, by omega, fun a => ?_⟩
    rw [hbalance, hfeeBalance, hkept.erc20, hkept.controller, hkept.issuanceSettings]
    omega

/-- The same of the fee of a redemption. -/
theorem redeem_settled_iff (hsplit : protocolFeeSplit module w.setToken ≤ preciseUnit)
    (h : version.redeem module hooks w sender quantity recipient = .ok v) :
    RedeemSettled module w v sender quantity ↔
      totalFee w.rest.issuanceSettings false quantity = 0 ∨
        protocolFeeSplit module w.setToken < preciseUnit := by
  obtain ⟨w₀, w₁, w₂, total, managerFee, protocolFee, hkept, hburn, hkept', hfees, hresolved⟩ :=
    redeem_eq hkeep h
  obtain ⟨hprotocol, hsum, htotal⟩ := calculateTotalFees_eq_ok hfees
  rw [if_neg Bool.false_ne_true] at htotal
  obtain ⟨s, hs, rfl⟩ := World.callSetToken_eq_ok.mp hburn
  obtain ⟨⟨hsupply, hbalance⟩, hcontroller⟩ := SetToken.burn_credited hs
  obtain ⟨hwhole, hminted⟩ := resolveFees_whole hsplit hsum hprotocol hresolved
  have hburned : w.setToken.totalSupply = s.totalSupply + quantity := by
    rw [SetToken.totalSupply, ← hkept.erc20]
    exact hsupply
  have hkeptSupply : w₂.setToken.totalSupply = s.totalSupply :=
    congrArg Erc20.totalSupply hkept'.erc20
  rw [hkeptSupply] at hwhole hminted
  constructor
  · rintro ⟨total', _, _, _, _, htotal', hsettled, _⟩
    exact hwhole (by omega)
  · intro hcondition
    obtain ⟨hfeeSupply, hfeeBalance⟩ := hminted hcondition
    refine ⟨total, managerFee, protocolFee, hfees, hsum, htotal, by omega, fun a => ?_⟩
    rw [hfeeBalance, hkept'.erc20, hkept'.controller, hkept'.issuanceSettings, hcontroller,
      ← hkept.erc20, hkept.controller, hkept.issuanceSettings, hbalance]
    dsimp only
    omega

/-- **Where the fees go.** With a split of at most one, issuing changes the supply by the quantity
with the whole fee and redeeming by the quantity without it, and the recipients get the fee
between them, exactly where there is no fee or the split is less than one. -/
theorem fees_settled_iff {managerHooks : Address → PreIssueHook (IssuanceState χ)}
    (hsplit : protocolFeeSplit module w.setToken ≤ preciseUnit) :
    (version.issue module hooks managerHooks w sender quantity recipient = .ok v →
      (IssueSettled module w v recipient quantity ↔
        totalFee w.rest.issuanceSettings true quantity = 0 ∨
          protocolFeeSplit module w.setToken < preciseUnit)) ∧
    (version.redeem module hooks w sender quantity recipient = .ok v →
      (RedeemSettled module w v sender quantity ↔
        totalFee w.rest.issuanceSettings false quantity = 0 ∨
          protocolFeeSplit module w.setToken < preciseUnit)) :=
  ⟨issue_settled_iff hkeep hsplit, redeem_settled_iff hkeep hsplit⟩

end Settled

/-! One component. The issuer at 5 pays a fee of one percent, which goes to 8 and to 6. -/

def exampleController (split : Nat) : Controller where
  isInitialized := true
  isSet := fun _ => false
  isFactory := fun a => a == 7
  isModule := fun a => a == 10
  fees := fun _ _ => split
  feeRecipient := 6
  integrationAdapter := fun _ _ => 0

def exampleWorld (split : Nat) : Result (IssuanceWorld Unit) := do
  let s ← SetTokenCreator.create (exampleController split) 7 20 [1] [10 ^ 18] [10] 9
  let s ← s.initializeModule 10
  pure
    { setToken := s
      tokens := fun _ =>
        { balances := fun a => if a = 5 then 10 ^ 6 else 0
          allowances := fun a b => if a = 5 ∧ b = 10 then 10 ^ 6 else 0
          totalSupply := 10 ^ 6 }
      rest :=
        { issuanceSettings := ⟨10 ^ 17, 10 ^ 16, 10 ^ 16, 8, 0, [], fun _ => false⟩
          others := () } }

def exampleHooks (_ : Address) : ModuleIssuanceHook Unit :=
  ⟨fun _ w _ => pure w, fun _ w _ => pure w, fun _ w _ _ _ => pure w, fun _ w _ _ _ => pure w⟩

theorem exampleHooks_keepsShares (m : Address) : (exampleHooks m).KeepsShares := by
  have hkept {w v : IssuanceWorld Unit} (h : (pure w : Result (IssuanceWorld Unit)) = .ok v) :
      SharesKept w v := by
    obtain rfl : w = v := by simpa using h
    exact .refl w
  exact ⟨fun _ _ _ _ => hkept, fun _ _ _ _ => hkept, fun _ _ _ _ _ _ => hkept,
    fun _ _ _ _ _ _ => hkept⟩

theorem fees_settled_example : ∃ w v, exampleWorld (3 * 10 ^ 17) = .ok w ∧
    v2.issue 10 exampleHooks (fun _ _ _ _ _ => pure ()) w 5 1000 5 = .ok v ∧
    IssueSettled 10 w v 5 1000 := by
  have h : (do
      let w ← exampleWorld (3 * 10 ^ 17)
      let _ ← v2.issue 10 exampleHooks (fun _ _ _ _ _ => pure ()) w 5 1000 5
      require (protocolFeeSplit 10 w.setToken = 3 * 10 ^ 17) "") = .ok () := by
    decide +kernel
  simp only [bind_eq_ok, require_eq_ok] at h
  obtain ⟨w, hw, v, hv, hsplit⟩ := h
  have hlt : protocolFeeSplit 10 w.setToken < preciseUnit := by
    rw [hsplit]
    decide
  exact ⟨w, v, hw, hv,
    ((fees_settled_iff exampleHooks_keepsShares hlt.le).1 hv).mpr (.inr hlt)⟩

/-- The protocol takes all: components come in for 1010 shares, and 1000 are minted. -/
theorem fee_lost : ∃ w v, exampleWorld (10 ^ 18) = .ok w ∧
    v1.issue 10 exampleHooks (fun _ _ _ _ _ => pure ()) w 5 1000 5 = .ok v ∧
    totalFee w.rest.issuanceSettings true 1000 = 10 ∧ v.balance 1 = w.balance 1 + 1010 ∧
    v.setToken.totalSupply = w.setToken.totalSupply + 1000 ∧ ¬IssueSettled 10 w v 5 1000 := by
  have h : (do
      let w ← exampleWorld (10 ^ 18)
      let v ← v1.issue 10 exampleHooks (fun _ _ _ _ _ => pure ()) w 5 1000 5
      require (totalFee w.rest.issuanceSettings true 1000 = 10 ∧ v.balance 1 = w.balance 1 + 1010 ∧
        v.setToken.totalSupply = w.setToken.totalSupply + 1000) "") = .ok () := by
    decide +kernel
  simp only [bind_eq_ok, require_eq_ok] at h
  obtain ⟨w, hw, v, hv, hfee, hbalance, hsupply⟩ := h
  refine ⟨w, v, hw, hv, hfee, hbalance, hsupply, ?_⟩
  rintro ⟨total, _, _, _, _, htotal, hsettled, _⟩
  omega

end IssuanceVersion

end IndexProtocol
