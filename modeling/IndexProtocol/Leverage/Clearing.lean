import IndexProtocol.Leverage.Effects
import IndexProtocol.Leverage.Lifecycle

/-! How a debt is cleared.

The module asks for what the SetToken owes, sells collateral for at least that
and repays all shares of the debt. Morpho accrues interest before it converts the
shares, with the formulas that the module has read them with, so what it charges
is what the module asked for. The totals that were read are those of Morpho, but
for a market whose totals leave 128 bits with the interest. -/
namespace IndexProtocol
open Evm PreciseUnitMath ModuleBase Morpho

namespace MorphoLeverageModule
variable {μ : Type} {morpho : MorphoBlue μ} {module : Address}
  {exchanges : Address → ExchangeAdapter} {w v : LeverageWorld μ} {collateral debt shares : Nat}

/-- The collateral of the units is withdrawn and sold for an output of at least the debt. -/
def SoldFor (morpho : MorphoBlue μ) (module : Address) (exchanges : Address → ExchangeAdapter)
    (w : LeverageWorld μ) (units : Nat) (adapter : String) (data : List UInt8)
    (debt output : Nat) : Prop :=
  ∃ notional deleverInfo w₁ w₂, preciseMul units w.setToken.totalSupply = .ok notional ∧
    createAndValidateActionInfoNotional module w (params w).collateralToken (params w).loanToken
      notional debt adapter false w.setToken.totalSupply = .ok deleverInfo ∧
    withdraw morpho module w (params w) deleverInfo.notionalSendQuantity = .ok w₁ ∧
    executeTrade module exchanges w₁ deleverInfo (params w).collateralToken (params w).loanToken
      data = .ok (w₂, output) ∧ debt ≤ output

/-- What the module reads of the debt is what Morpho charges for it, delevering to zero clears it,
and the totals that are read do not fall below those stored. -/
structure ClearsDebt (morpho : MorphoBlue μ) (module : Address)
    (exchanges : Address → ExchangeAdapter) (w : LeverageWorld μ) : Prop where
  charged : ∀ tokens tokens' state', 0 < owed morpho w →
    morpho.repay 0 (owed morpho w) w.setToken.self w.rest.others.timestamp w.setToken.self (params w)
      (tokens, w.rest.others.morpho) = .ok (tokens', state') →
    ∃ collateral debt,
      getCollateralAndBorrowBalances morpho w (params w) = .ok (collateral, debt, owed morpho w) ∧
      Paid tokens tokens' w.setToken.self (params w).loanToken debt
  cleared : ∀ sender units adapter data v,
    deleverToZeroBorrowBalance morpho module exchanges w sender units adapter data = .ok v →
    owed morpho v = 0 ∧ module ∉ v.setToken.externalPositionModules (params w).loanToken ∧
    ∃ collateral debt output,
      getCollateralAndBorrowBalances morpho w (params w) = .ok (collateral, debt, owed morpho w) ∧
      SoldFor morpho module exchanges w units adapter data debt output ∧
      v.balance (params w).loanToken + debt = w.balance (params w).loanToken + output
  never_below : ∀ expected,
    morpho.expectedMarketBalances w.rest.others.morpho w.rest.others.timestamp (params w) =
      .ok expected →
    (morpho.market w.rest.others.morpho (morpho.id (params w))).totalBorrowAssets ≤
        expected.totalBorrowAssets ∧
      (morpho.market w.rest.others.morpho (morpho.id (params w))).totalSupplyAssets ≤
        expected.totalSupplyAssets

/-! ### What is read of the debt -/

/-- The debt is read at the totals that Morpho accrues to. -/
theorem balances_of_accrued {market : Market} (htime : w.rest.others.timestamp < uintBound)
    (haccrued : morpho.accruedMarket w.rest.others.morpho w.rest.others.timestamp (params w) =
      .ok market)
    (hassets : SharesMath.toAssetsUp (owed morpho w) market.totalBorrowAssets
      market.totalBorrowShares = .ok debt) :
    ∃ collateral,
      getCollateralAndBorrowBalances morpho w (params w) = .ok (collateral, debt, owed morpho w) := by
  obtain ⟨expected, hexpected, hborrowed, hshares⟩ := MorphoBlue.expected_of_accrued htime haccrued
  rw [← hborrowed, ← hshares] at hassets
  refine ⟨(marketPosition morpho w (params w)).collateral, ?_⟩
  unfold getCollateralAndBorrowBalances
  dsimp only
  rw [hexpected, ok_bind]
  exact bind_eq_ok.mpr ⟨debt, hassets, rfl⟩

theorem balances_owed
    (h : getCollateralAndBorrowBalances morpho w (params w) = .ok (collateral, debt, shares)) :
    shares = owed morpho w ∧ (debt = 0 ↔ shares = 0) := by
  obtain ⟨_, hshares, hzero⟩ := getCollateralAndBorrowBalances_eq h
  exact ⟨hshares, hzero⟩

/-- Positions written afterwards leave the debt. -/
theorem owed_of_rest (hsteady : Steady w v) (hrest : v.rest = w.rest) :
    owed morpho v = owed morpho w := by
  rw [owed, owed, hsteady.params, hsteady.self, hrest]

/-! ### Repaying all of it -/

section Laws
variable (hlawful : morpho.Lawful) (hdebts : morpho.KeepsDebts)
  (hself : w.setToken.self ≠ morpho.self) (htime : w.rest.others.timestamp < uintBound)
include hdebts htime hself

/-- Whatever Morpho charges for all shares was read before. -/
theorem repay_charged {tokens tokens' : Tokens} {state' : μ} (hpos : 0 < owed morpho w)
    (h : morpho.repay 0 (owed morpho w) w.setToken.self w.rest.others.timestamp w.setToken.self
      (params w) (tokens, w.rest.others.morpho) = .ok (tokens', state')) :
    ∃ collateral debt,
      getCollateralAndBorrowBalances morpho w (params w) = .ok (collateral, debt, owed morpho w) ∧
      Paid tokens tokens' w.setToken.self (params w).loanToken debt := by
  obtain ⟨market, debt, haccrued, hassets, hpaid, _⟩ := hdebts.repayShares hself hpos h
  obtain ⟨collateral, hbalances⟩ := balances_of_accrued htime haccrued hassets
  exact ⟨collateral, debt, hbalances, hpaid⟩

include hlawful

/-- Repaying what was read clears the debt and costs the debt, also after a withdrawal. -/
theorem repayBorrow_clears {u : LeverageWorld μ} {market : Market} (hsteady : Steady w u)
    (howed : owed morpho u = owed morpho w)
    (haccrued : morpho.accruedMarket w.rest.others.morpho w.rest.others.timestamp (params w) =
      .ok market)
    (haccrued' : morpho.accruedMarket u.rest.others.morpho u.rest.others.timestamp (params u) =
      .ok market)
    (hbalances : getCollateralAndBorrowBalances morpho w (params w) = .ok (collateral, debt, shares))
    (h : repayBorrow morpho module u (params u) debt shares = .ok v) :
    owed morpho v = 0 ∧ Paid u.tokens v.tokens u.setToken.self (params w).loanToken debt := by
  have hself' : u.setToken.self ≠ morpho.self := by rwa [hsteady.self]
  have hrepaid := (repayBorrow_effect h).1
  obtain ⟨hshares, hzero⟩ := balances_owed hbalances
  rw [← hsteady.params]
  cases Nat.eq_zero_or_pos shares with
  | inl hnone =>
    -- Without a debt nothing is repaid, if Morpho takes that at all.
    cases hzero.mpr hnone
    rw [hnone] at h hshares
    have hcalled := (repayBorrow_effect h).2
    simp only [lt_irrefl, if_false] at hcalled
    obtain ⟨_, _, hburned⟩ := hcalled.repayAssets hdebts hrepaid
    exact ⟨by omega, (repayBorrow_paid hlawful hself' h).2⟩
  | inr hpos =>
    rw [repayBorrow_eq] at h
    obtain ⟨_, tokens, hsame, hcall⟩ := approved_call h
    rw [if_pos hpos, hshares, ← howed] at hcall
    rw [hshares, ← howed] at hpos
    obtain ⟨market', assets, hmarket', hassets, hpaid, hburned⟩ :=
      hdebts.repayShares hself' hpos hcall
    cases Except.ok.inj (haccrued'.symm.trans hmarket')
    rw [howed] at hassets
    obtain ⟨collateral', hbalances'⟩ := balances_of_accrued htime haccrued hassets
    cases Except.ok.inj (hbalances.symm.trans hbalances')
    refine ⟨?_, fun t => ?_⟩
    · have hleft : owed morpho v + owed morpho u = owed morpho u := by
        rw [owed, hrepaid.params, hrepaid.self]
        exact hburned
      omega
    · rw [← hsame]
      exact hpaid t

end Laws

/-- What a trade pays is on top of the balance that was there before it. -/
theorem executeTrade_output {actionInfo : ActionInfo} {sendToken receiveToken : Address}
    {data : List UInt8} {output : Nat}
    (h : executeTrade module exchanges w actionInfo sendToken receiveToken data = .ok (v, output)) :
    v.balance receiveToken = actionInfo.preTradeReceiveTokenBalance + output ∧
      actionInfo.minNotionalReceiveQuantity ≤ output := by
  simp only [executeTrade, bind_eq_ok, SafeMath.sub_eq_ok, require_eq_ok, exists_const, pure_eq_ok,
    Prod.mk.injEq] at h
  obtain ⟨_, _, _, _, _, ⟨hle, rfl⟩, hmin, rfl, rfl⟩ := h
  exact ⟨by omega, hmin⟩

theorem updateRepayDefaultPosition_tokens {actionInfo : ActionInfo} {repayAsset : Address}
    (h : updateRepayDefaultPosition module w actionInfo repayAsset = .ok v) :
    v.tokens = w.tokens := by
  unfold updateRepayDefaultPosition at h
  dsimp only at h
  split_ifs at h
  · obtain ⟨_, _, rfl⟩ := World.callSetToken_eq_ok.mp h
    rfl
  · obtain rfl := pure_eq_ok.mp h
    rfl

/-- The info of a trade has its minimum and the balance before it. -/
theorem createAndValidateActionInfoNotional_eq {sendToken receiveToken : Address}
    {sent received supply : Nat} {adapter : String} {isLever : Bool} {actionInfo : ActionInfo}
    (h : createAndValidateActionInfoNotional module w sendToken receiveToken sent received adapter
      isLever supply = .ok actionInfo) :
    actionInfo.minNotionalReceiveQuantity = received ∧
      actionInfo.preTradeReceiveTokenBalance = w.balance receiveToken := by
  simp only [createAndValidateActionInfoNotional, bind_eq_ok, pure_eq_ok] at h
  obtain ⟨_, _, _, _, rfl⟩ := h
  exact ⟨rfl, rfl⟩

/-- The loan tokens of the SetToken before and after what was sold and repaid. -/
theorem cleared_balance {w₂ w₃ : LeverageWorld μ} {token : Address} {output : Nat}
    (htrade : w₂.balance token = w.balance token + output)
    (hself₂ : w₂.setToken.self = w.setToken.self) (hself₃ : w₃.setToken.self = w.setToken.self)
    (hpaid : Paid w₂.tokens w₃.tokens w₂.setToken.self token debt) :
    w₃.balance token + debt = w.balance token + output := by
  have hrepaid := hpaid token
  rw [if_pos rfl] at hrepaid
  rw [World.balance, hself₃, ← hself₂, hrepaid, ← htrade]
  rfl

section Clear
variable (hlawful : morpho.Lawful) (hdebts : morpho.KeepsDebts)
  (hself : w.setToken.self ≠ morpho.self) (htime : w.rest.others.timestamp < uintBound)
  (hwf : w.setToken.WellFormed)
include hlawful hdebts hself htime hwf

/-- Delevering to zero clears the debt, and what was sold for more than it is left. -/
theorem deleverToZeroBorrowBalance_clears {sender : Address} {units : Nat} {adapter : String}
    {data : List UInt8}
    (h : deleverToZeroBorrowBalance morpho module exchanges w sender units adapter data = .ok v) :
    owed morpho v = 0 ∧ module ∉ v.setToken.externalPositionModules (params w).loanToken ∧
    ∃ collateral debt output,
      getCollateralAndBorrowBalances morpho w (params w) = .ok (collateral, debt, owed morpho w) ∧
      SoldFor morpho module exchanges w units adapter data debt output ∧
      v.balance (params w).loanToken + debt = w.balance (params w).loanToken + output := by
  simp only [deleverToZeroBorrowBalance, bind_eq_ok] at h
  obtain ⟨_, _, notional, hnotional, ⟨collateral, debt, shares⟩, hbalances, info, hinfo, w₁,
    hwithdraw, ⟨w₂, output⟩, htrade, w₃, hrepay, w₄, hupdate, hsync⟩ := h
  obtain ⟨hmin, hpre⟩ := createAndValidateActionInfoNotional_eq hinfo
  obtain ⟨rfl, _⟩ := balances_owed hbalances
  obtain ⟨hsteady₁, hwithdrawn⟩ := withdraw_effect hwithdraw
  obtain ⟨hsteady₂, hrest₂⟩ := executeTrade_steady htrade
  have hsteady₁₂ : Steady w w₂ := hsteady₁.trans hsteady₂
  -- The withdrawal accrues interest, so that the debt is still the one that was read.
  have hwithdrawn₂ : Called w w₂ _ := hwithdrawn.to_rest hrest₂
  obtain ⟨howed, market, haccrued, haccrued₂⟩ := hwithdrawn₂.withdrawCollateral hdebts hsteady₁₂
  rw [← hsteady₁₂.params] at hrepay
  obtain ⟨hcleared, hpaid⟩ := repayBorrow_clears hlawful hdebts hself htime hsteady₁₂ howed haccrued
    haccrued₂ hbalances hrepay
  obtain ⟨hsteady₃, _⟩ := repayBorrow_effect hrepay
  obtain ⟨hsteady₄, hrest₄⟩ := updateRepayDefaultPosition_steady hupdate
  obtain ⟨hsteady₅, hrest₅⟩ := syncPositions_steady hsync
  have hsteady₁₃ : Steady w w₃ := hsteady₁₂.trans hsteady₃
  obtain ⟨htraded, hcovered⟩ := executeTrade_output htrade
  refine ⟨?_, ?_, collateral, debt, output, hbalances, ?_, ?_⟩
  · rw [owed_of_rest (hsteady₄.trans hsteady₅) (hrest₅.trans hrest₄)]
    exact hcleared
  · have hkept : Kept w w₃ :=
      ((withdraw_kept hwithdraw).trans (executeTrade_kept htrade)).trans (repayBorrow_kept hrepay)
    have hconfined : Confined module w w₃ := hkept.confined hwf
    have hwf₄ := (updateRepayDefaultPosition_confined hconfined.wellFormed hupdate).wellFormed
    have hparams : params w₄ = params w := (hsteady₁₃.trans hsteady₄).params
    have howed₄ : owed morpho w₄ = 0 := (owed_of_rest hsteady₄ hrest₄).trans hcleared
    rw [← hparams, (syncPositions_listed hwf₄ hsync).1]
    exact fun hlisted => hlisted.2 howed₄
  · exact ⟨notional, info, w₁, w₂, hnotional, hinfo, hwithdraw, htrade, hmin.symm.trans_le hcovered⟩
  · have hleft : w₃.balance (params w).loanToken + debt =
        w.balance (params w).loanToken + output := by
      refine cleared_balance ?_ hsteady₁₂.self hsteady₁₃.self hpaid
      rw [htraded, hpre]
    have htokens : v.tokens = w₃.tokens := by
      obtain ⟨_, _, _, _, _, _, hv⟩ := syncPositions_eq hsync
      rw [hv, ← updateRepayDefaultPosition_tokens hupdate]
    rw [World.balance, htokens, (hsteady₄.trans hsteady₅).self]
    exact hleft

/-- **When a debt is cleared as it was read.** On a Morpho that converts at the accrued totals, what
is read of the debt is what is charged and delevering to zero clears it, in every state. The totals
that are read are at least those stored exactly where they do not wrap with the interest. -/
theorem clearsDebt_iff : ClearsDebt morpho module exchanges w ↔
    MorphoBlue.Unwrapped morpho w.rest.others.morpho w.rest.others.timestamp (params w) := by
  refine ⟨fun h => MorphoBlue.never_below_iff.mp h.never_below, fun h => ⟨?_, ?_, ?_⟩⟩
  · intro tokens tokens' state' hpos hcall
    exact repay_charged hdebts hself htime hpos hcall
  · intro sender units adapter data v hv
    exact deleverToZeroBorrowBalance_clears hlawful hdebts hself htime hwf hv
  · exact MorphoBlue.never_below_iff.mpr h

end Clear

/-! A debt on a market that takes a billionth per second, a thousand seconds later. -/

def exampleIndebted (market : Market) : Result (LeverageWorld Ledger) := do
  let w ← exampleWorld (10 ^ 18) (10 ^ 18) 0 0
  let ledger : Ledger :=
    { markets := fun _ => market
      positions := fun _ _ => ⟨0, 5 * 10 ^ 16, 10 ^ 12⟩ }
  pure (withOthers w { w.rest.others with
    morpho := ledger
    timestamp := 1001
    marketParams := { exampleParams with irm := 4 } })

theorem exampleIndebted_spec {market : Market} {w : LeverageWorld Ledger}
    (h : exampleIndebted market = .ok w) :
    w.setToken.WellFormed ∧ w.rest.others.timestamp = 1001 ∧
      ∀ id, (accruing (10 ^ 9)).market w.rest.others.morpho id = market := by
  simp only [exampleIndebted, bind_eq_ok, pure_eq_ok] at h
  obtain ⟨_, hw, rfl⟩ := h
  exact ⟨(exampleWorld_wellFormed hw).1, rfl, fun _ => rfl⟩

theorem clearsDebt_example : ∃ w v, exampleIndebted exampleMarket = .ok w ∧
    deleverToZeroBorrowBalance (accruing (10 ^ 9)) 50 exampleExchange w 9 (6 * 10 ^ 10) "exchange" [] =
      .ok v ∧
    owed (accruing (10 ^ 9)) w = 5 * 10 ^ 16 ∧ owed (accruing (10 ^ 9)) v = 0 ∧
    ClearsDebt (accruing (10 ^ 9)) 50 exampleExchange w := by
  have h : (do
      let w ← exampleIndebted exampleMarket
      let v ← deleverToZeroBorrowBalance (accruing (10 ^ 9)) 50 exampleExchange w 9 (6 * 10 ^ 10)
        "exchange" []
      require (w.setToken.self ≠ (accruing (10 ^ 9)).self ∧
        owed (accruing (10 ^ 9)) w = 5 * 10 ^ 16 ∧ owed (accruing (10 ^ 9)) v = 0) "") = .ok () := by
    decide +kernel
  simp only [bind_eq_ok, require_eq_ok] at h
  obtain ⟨w, hw, v, hv, hself, howed, hcleared⟩ := h
  obtain ⟨hwf, htime, hmarket⟩ := exampleIndebted_spec hw
  have hunwrapped : MorphoBlue.Unwrapped (accruing (10 ^ 9)) w.rest.others.morpho
      w.rest.others.timestamp (params w) := by
    intro expected rate _ _ hrate
    cases pure_eq_ok.mp hrate
    dsimp only
    rw [hmarket, htime, show MorphoBlue.interestOf (10 ^ 9) (wrapSub 1001 exampleMarket.lastUpdate)
      exampleMarket.totalBorrowAssets = 1000000 by decide +kernel]
    decide
  exact ⟨w, v, hw, hv, howed, hcleared, (clearsDebt_iff (accruing_lawful _) (accruing_keepsDebts _)
    hself (by rw [htime]; decide) hwf).mpr hunwrapped⟩

/-- Totals as large as 128 bits hold: both come out smaller than they are stored. -/
theorem totals_wrapped : ∃ w expected,
    exampleIndebted ⟨2 ^ 128 - 1, 10 ^ 19, 2 ^ 128 - 1, 10 ^ 18, 1, 0⟩ = .ok w ∧
    (accruing (10 ^ 9)).expectedMarketBalances w.rest.others.morpho w.rest.others.timestamp
      (params w) = .ok expected ∧
    expected.totalBorrowAssets < 2 ^ 128 - 1 ∧ expected.totalSupplyAssets < 2 ^ 128 - 1 ∧
    ¬ClearsDebt (accruing (10 ^ 9)) 50 exampleExchange w := by
  have h : (do
      let w ← exampleIndebted ⟨2 ^ 128 - 1, 10 ^ 19, 2 ^ 128 - 1, 10 ^ 18, 1, 0⟩
      let expected ← (accruing (10 ^ 9)).expectedMarketBalances w.rest.others.morpho
        w.rest.others.timestamp (params w)
      require (expected.totalBorrowAssets < 2 ^ 128 - 1 ∧
        expected.totalSupplyAssets < 2 ^ 128 - 1) "") = .ok () := by
    decide +kernel
  simp only [bind_eq_ok, require_eq_ok] at h
  obtain ⟨w, hw, expected, hexpected, hborrowed, hsupplied⟩ := h
  refine ⟨w, expected, hw, hexpected, hborrowed, hsupplied, fun hclears => ?_⟩
  have hbelow := (hclears.never_below expected hexpected).1
  rw [(exampleIndebted_spec hw).2.2] at hbelow
  exact absurd hbelow hborrowed.not_ge

end MorphoLeverageModule

end IndexProtocol
