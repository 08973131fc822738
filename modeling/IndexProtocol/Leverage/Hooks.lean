import IndexProtocol.Leverage.Sync

/-! What the hooks move when the SetToken is issued and redeemed.

The hooks of a component take their amount from the unit of the module's own
position in it, rounded down, and hand it to Morpho. On a lawful Morpho they move
that amount of the component, no other token, and leave the SetToken alone. -/
namespace IndexProtocol
open Evm PreciseUnitMath ModuleBase Morpho

namespace MorphoLeverageModule
variable {μ : Type} {morpho : MorphoBlue μ} {module component : Address}

/-! ### Amounts -/

section Notional
variable {s : SetToken} {quantity notional : Nat}

theorem notionalCollateral_eq_ok (h : notionalCollateral module s component quantity = .ok notional) :
    0 < s.externalRealUnit component module ∧
      (s.externalRealUnit component module).toNat * quantity / preciseUnit = notional := by
  simp only [notionalCollateral, bind_eq_ok, SetToken.getExternalPositionRealUnit_eq_ok,
    require_eq_ok, exists_const, SafeCast.toUint256_eq_ok, preciseMul_eq_ok] at h
  obtain ⟨_, ⟨_, rfl⟩, hpos, unit, hunit, _, rfl⟩ := h
  rw [hunit, Int.toNat_natCast]
  exact ⟨hunit ▸ hpos, rfl⟩

theorem notionalDebt_eq_ok (h : notionalDebt module s component quantity = .ok notional) :
    s.externalRealUnit component module < 0 ∧
      (-s.externalRealUnit component module).toNat * quantity / preciseUnit = notional := by
  simp only [notionalDebt, bind_eq_ok, SetToken.getExternalPositionRealUnit_eq_ok, require_eq_ok,
    exists_const, SignedSafeMath.mul_eq_ok, SafeCast.toUint256_eq_ok, preciseMul_eq_ok] at h
  obtain ⟨_, ⟨_, rfl⟩, hneg, _, ⟨_, rfl⟩, unit, hunit, _, rfl⟩ := h
  have hunit' : -s.externalRealUnit component module = unit := by omega
  rw [hunit', Int.toNat_natCast]
  exact ⟨hneg, rfl⟩

end Notional

/-! ### Calls of Morpho -/

variable {w v : LeverageWorld μ}

/-- The SetToken and the market of its position stayed. -/
structure Kept (w v : LeverageWorld μ) : Prop where
  setToken : v.setToken = w.setToken
  params : params v = params w

theorem Kept.refl (w : LeverageWorld μ) : Kept w w := ⟨rfl, rfl⟩

theorem Kept.trans {u : LeverageWorld μ} (h : Kept w v) (h' : Kept v u) : Kept w u :=
  ⟨h'.setToken.trans h.setToken, h'.params.trans h.params⟩

theorem invokeMorpho_eq_ok {p : MarketParams} {call : Address → Call μ}
    (h : invokeMorpho module w p call = .ok v) :
    Kept w v ∧ call w.setToken.self w.rest.others.timestamp w.setToken.self p
      (w.tokens, w.rest.others.morpho) = .ok (v.tokens, v.rest.others.morpho) := by
  simp only [invokeMorpho, World.invoke, bind_eq_ok, pure_eq_ok] at h
  obtain ⟨_, _, ⟨tokens, state⟩, hcall, rfl⟩ := h
  exact ⟨⟨rfl, rfl⟩, hcall⟩

/-- An approval changes neither the SetToken nor Morpho nor a balance. -/
theorem invokeApprove_kept {token spender : Address} {quantity : Nat}
    (h : Invoke.invokeApprove w module token spender quantity = .ok v) :
    Kept w v ∧ v.rest = w.rest ∧
      ∀ t account, (v.tokens t).balanceOf account = (w.tokens t).balanceOf account := by
  obtain ⟨hsame, hbalances⟩ := World.invokeApprove_balance h
  refine ⟨⟨hsame.setToken, ?_⟩, hsame.rest, fun t account => ?_⟩
  · rw [params, params, hsame.rest]
  · by_cases ht : t = token
    · subst ht
      exact congrFun hbalances account
    · rw [hsame.tokens t ht]

section Calls
variable {p : MarketParams} {quantity : Nat}

/-- Ledgers with the same balances, where allowances may differ. -/
def SameBalances (tokens tokens' : Tokens) : Prop :=
  ∀ t account, (tokens' t).balanceOf account = (tokens t).balanceOf account

/-- A call of Morpho after its allowance was set. -/
theorem approved_call {token : Address} {call : Address → Call μ}
    (h : (Invoke.invokeApprove w module token morpho.self quantity >>=
      fun w => invokeMorpho module w p call) = .ok v) :
    Kept w v ∧ ∃ tokens, SameBalances w.tokens tokens ∧
      call w.setToken.self w.rest.others.timestamp w.setToken.self p
        (tokens, w.rest.others.morpho) = .ok (v.tokens, v.rest.others.morpho) := by
  rw [bind_eq_ok] at h
  obtain ⟨w₁, happrove, h⟩ := h
  obtain ⟨hkept₁, hrest, hbalances⟩ := invokeApprove_kept happrove
  obtain ⟨hkept₂, hcall⟩ := invokeMorpho_eq_ok h
  rw [hkept₁.setToken, hrest] at hcall
  exact ⟨hkept₁.trans hkept₂, w₁.tokens, hbalances, hcall⟩

theorem deposit_kept (h : deposit morpho module w p quantity = .ok v) : Kept w v :=
  (approved_call h).1

theorem withdraw_kept (h : withdraw morpho module w p quantity = .ok v) : Kept w v :=
  (invokeMorpho_eq_ok h).1

theorem borrow_kept (h : borrow morpho module w p quantity = .ok v) : Kept w v :=
  (invokeMorpho_eq_ok h).1

theorem repayBorrow_eq {shares : Nat} :
    repayBorrow morpho module w p quantity shares =
      Invoke.invokeApprove w module p.loanToken morpho.self quantity >>= fun w =>
        invokeMorpho module w p fun self =>
          if 0 < shares then morpho.repay 0 shares self else morpho.repay quantity 0 self := by
  unfold repayBorrow
  split <;> rfl

theorem repayBorrow_kept {shares : Nat}
    (h : repayBorrow morpho module w p quantity shares = .ok v) : Kept w v := by
  rw [repayBorrow_eq] at h
  exact (approved_call h).1

variable (hlawful : morpho.Lawful) (hself : w.setToken.self ≠ morpho.self)
include hlawful hself

theorem deposit_paid (h : deposit morpho module w p quantity = .ok v) :
    Kept w v ∧ Paid w.tokens v.tokens w.setToken.self p.collateralToken quantity := by
  obtain ⟨hkept, tokens, hbalances, hcall⟩ := approved_call h
  refine ⟨hkept, fun t => ?_⟩
  rw [← hbalances]
  exact hlawful.supplyCollateral hself hcall t

theorem withdraw_received (h : withdraw morpho module w p quantity = .ok v) :
    Kept w v ∧ Received w.tokens v.tokens w.setToken.self p.collateralToken quantity := by
  obtain ⟨hkept, hcall⟩ := invokeMorpho_eq_ok h
  exact ⟨hkept, hlawful.withdrawCollateral hself hcall⟩

theorem borrow_received (h : borrow morpho module w p quantity = .ok v) :
    Kept w v ∧ Received w.tokens v.tokens w.setToken.self p.loanToken quantity := by
  obtain ⟨hkept, hcall⟩ := invokeMorpho_eq_ok h
  exact ⟨hkept, hlawful.borrow hself hcall⟩

/-- Repaying assets, as the hook does. -/
theorem repayBorrow_paid (h : repayBorrow morpho module w p quantity 0 = .ok v) :
    Kept w v ∧ Paid w.tokens v.tokens w.setToken.self p.loanToken quantity := by
  rw [repayBorrow_eq] at h
  obtain ⟨hkept, tokens, hbalances, hcall⟩ := approved_call h
  rw [if_neg (lt_irrefl 0)] at hcall
  refine ⟨hkept, fun t => ?_⟩
  rw [← hbalances]
  exact hlawful.repay hself hcall t

end Calls

/-! ### Hooks -/

/-- The units of a component: its default unit, and the module's position as equity or as debt. -/
def defaultUnit (s : SetToken) (component : Address) : Nat := (s.defaultRealUnit component).toNat

def equityUnit (s : SetToken) (module component : Address) : Nat :=
  (s.externalRealUnit component module).toNat

def debtUnit (s : SetToken) (module component : Address) : Nat :=
  (-s.externalRealUnit component module).toNat

/-- The amounts that the hooks take for the quantity. -/
def hookEquity (s : SetToken) (module component : Address) (quantity : Nat) : Nat :=
  equityUnit s module component * quantity / preciseUnit

def hookDebt (s : SetToken) (module component : Address) (quantity : Nat) : Nat :=
  debtUnit s module component * quantity / preciseUnit

section Sign
variable {s : SetToken} {quantity : Nat}

theorem hookEquity_of_nonpos (h : s.externalRealUnit component module ≤ 0) :
    hookEquity s module component quantity = 0 := by
  rw [hookEquity, equityUnit, Int.toNat_of_nonpos h, Nat.zero_mul, Nat.zero_div]

theorem hookDebt_of_nonneg (h : 0 ≤ s.externalRealUnit component module) :
    hookDebt s module component quantity = 0 := by
  rw [hookDebt, debtUnit, Int.toNat_of_nonpos (by omega), Nat.zero_mul, Nat.zero_div]

end Sign

section Hooks
variable (hlawful : morpho.Lawful) (hself : w.setToken.self ≠ morpho.self) {caller : Address}
  {quantity : Nat}
include hlawful hself

/-- Equity of another component than the collateral is nothing to the module. -/
theorem componentRedeemHook_equity
    (h : componentRedeemHook morpho module caller w quantity component true = .ok v) :
    Kept w v ∧ ((params w).collateralToken = component →
        Received w.tokens v.tokens w.setToken.self component
          (hookEquity w.setToken module component quantity)) ∧
      ((params w).collateralToken ≠ component → v = w) := by
  simp only [componentRedeemHook, bind_eq_ok, if_true] at h
  obtain ⟨_, _, h⟩ := h
  split_ifs at h with hcollateral
  · simp only [bind_eq_ok] at h
    obtain ⟨_, hnotional, h⟩ := h
    obtain ⟨_, rfl⟩ := notionalCollateral_eq_ok hnotional
    obtain ⟨hkept, hreceived⟩ := withdraw_received hlawful hself h
    exact ⟨hkept, fun _ => hcollateral ▸ hreceived, fun hne => absurd hcollateral hne⟩
  · obtain rfl : w = v := by simpa using h
    exact ⟨.refl w, fun heq => absurd heq hcollateral, fun _ => rfl⟩

theorem componentRedeemHook_debt
    (h : componentRedeemHook morpho module caller w quantity component false = .ok v) :
    Kept w v ∧ (params w).loanToken = component ∧
      Paid w.tokens v.tokens w.setToken.self component
        (hookDebt w.setToken module component quantity) := by
  simp only [componentRedeemHook, bind_eq_ok, require_eq_ok, exists_const, Bool.false_eq_true,
    if_false] at h
  obtain ⟨_, _, hloan, _, hnotional, h⟩ := h
  obtain ⟨_, rfl⟩ := notionalDebt_eq_ok hnotional
  obtain ⟨hkept, hpaid⟩ := repayBorrow_paid hlawful hself h
  exact ⟨hkept, hloan, hloan ▸ hpaid⟩

theorem componentIssueHook_equity
    (h : componentIssueHook morpho module caller w quantity component true = .ok v) :
    Kept w v ∧ ((params w).collateralToken = component →
        Paid w.tokens v.tokens w.setToken.self component
          (hookEquity w.setToken module component quantity)) ∧
      ((params w).collateralToken ≠ component → v = w) := by
  simp only [componentIssueHook, bind_eq_ok, if_true] at h
  obtain ⟨_, _, h⟩ := h
  split_ifs at h with hcollateral
  · simp only [bind_eq_ok] at h
    obtain ⟨_, hnotional, h⟩ := h
    obtain ⟨_, rfl⟩ := notionalCollateral_eq_ok hnotional
    obtain ⟨hkept, hpaid⟩ := deposit_paid hlawful hself h
    exact ⟨hkept, fun _ => hcollateral ▸ hpaid, fun hne => absurd hcollateral hne⟩
  · obtain rfl : w = v := by simpa using h
    exact ⟨.refl w, fun heq => absurd heq hcollateral, fun _ => rfl⟩

theorem componentIssueHook_debt
    (h : componentIssueHook morpho module caller w quantity component false = .ok v) :
    Kept w v ∧ (params w).loanToken = component ∧
      Received w.tokens v.tokens w.setToken.self component
        (hookDebt w.setToken module component quantity) := by
  simp only [componentIssueHook, bind_eq_ok, require_eq_ok, exists_const, Bool.false_eq_true,
    if_false] at h
  obtain ⟨_, _, hloan, _, hnotional, h⟩ := h
  obtain ⟨_, rfl⟩ := notionalDebt_eq_ok hnotional
  obtain ⟨hkept, hreceived⟩ := borrow_received hlawful hself h
  exact ⟨hkept, hloan, hloan ▸ hreceived⟩

end Hooks

end MorphoLeverageModule

end IndexProtocol
