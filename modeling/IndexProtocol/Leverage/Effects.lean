import IndexProtocol.Leverage.Removal
import IndexProtocol.Morpho.Accrual

/-! What a call of the module does on Morpho, and what it leaves.

Every operation of the module is a few calls of Morpho in the name of the
SetToken, with trades in between. Around these calls the module writes positions
of the SetToken and nothing else: its address, its market and the time stay. -/
namespace IndexProtocol
open Evm PreciseUnitMath ModuleBase Morpho

namespace MorphoLeverageModule
variable {μ : Type} {morpho : MorphoBlue μ} {module : Address}
  {exchanges : Address → ExchangeAdapter} {w v : LeverageWorld μ}

/-- Only positions of the SetToken, tokens and the state of Morpho changed. -/
structure Steady (w v : LeverageWorld μ) : Prop where
  setToken : w.setToken.OnlyPositions v.setToken
  others : v.rest.others = { w.rest.others with morpho := v.rest.others.morpho }

namespace Steady

theorem refl (w : LeverageWorld μ) : Steady w w := ⟨.refl _, rfl⟩

theorem trans {u : LeverageWorld μ} (h : Steady w v) (h' : Steady v u) : Steady w u := by
  refine ⟨h.setToken.trans h'.setToken, ?_⟩
  rw [h'.others, h.others]

theorem timestamp (h : Steady w v) : v.rest.others.timestamp = w.rest.others.timestamp := by
  rw [h.others]

theorem params (h : Steady w v) : params v = params w := by
  rw [MorphoLeverageModule.params, MorphoLeverageModule.params, h.others]

theorem self (h : Steady w v) : v.setToken.self = w.setToken.self := h.setToken.self

end Steady

/-- What the SetToken owes in its market, in shares. -/
def owed (morpho : MorphoBlue μ) (w : LeverageWorld μ) : Nat :=
  morpho.debtShares w.rest.others.morpho (params w) w.setToken.self

/-- Morpho took a call of the SetToken for its market. -/
def Called (w v : LeverageWorld μ) (call : Address → Call μ) : Prop :=
  ∃ tokens tokens', call w.setToken.self w.rest.others.timestamp w.setToken.self (params w)
    (tokens, w.rest.others.morpho) = .ok (tokens', v.rest.others.morpho)

/-! ### The parts of an operation -/

section Parts
variable {quantity : Nat}

theorem invokeMorpho_steady {p : MarketParams} {call : Address → Call μ}
    (h : invokeMorpho module w p call = .ok v) : Steady w v := by
  simp only [invokeMorpho, World.invoke, bind_eq_ok, pure_eq_ok] at h
  obtain ⟨_, _, _, _, rfl⟩ := h
  exact ⟨.refl _, rfl⟩

theorem sameBut_steady {token : Address} (h : w.SameBut v token) : Steady w v := by
  refine ⟨.of_eq h.setToken.symm, ?_⟩
  rw [h.rest]

theorem invokeApprove_steady {token spender : Address}
    (h : Invoke.invokeApprove w module token spender quantity = .ok v) :
    Steady w v ∧ v.rest = w.rest :=
  ⟨sameBut_steady (World.invokeApprove_balance h).1, (World.invokeApprove_balance h).1.rest⟩

/-- A call of Morpho after its allowance was set. -/
theorem approved_effect {token : Address} {call : Address → Call μ}
    (h : (Invoke.invokeApprove w module token morpho.self quantity >>=
      fun w => invokeMorpho module w (params w) call) = .ok v) : Steady w v ∧ Called w v call := by
  obtain ⟨w₁, happrove, h⟩ := bind_eq_ok.mp h
  obtain ⟨hsteady₁, hrest⟩ := invokeApprove_steady happrove
  have hcall := (invokeMorpho_eq_ok h).2
  rw [hsteady₁.self, hsteady₁.params, hrest] at hcall
  exact ⟨hsteady₁.trans (invokeMorpho_steady h), w₁.tokens, v.tokens, hcall⟩

theorem deposit_effect (h : deposit morpho module w (params w) quantity = .ok v) :
    Steady w v ∧ Called w v (morpho.supplyCollateral quantity ·) := by
  unfold deposit at h
  obtain ⟨w₁, happrove, h⟩ := bind_eq_ok.mp h
  rw [← (invokeApprove_steady happrove).1.params] at h
  exact approved_effect (bind_eq_ok.mpr ⟨w₁, happrove, h⟩)

theorem withdraw_effect (h : withdraw morpho module w (params w) quantity = .ok v) :
    Steady w v ∧ Called w v (fun self => morpho.withdrawCollateral quantity self self) :=
  ⟨invokeMorpho_steady h, w.tokens, v.tokens, (invokeMorpho_eq_ok h).2⟩

theorem borrow_effect (h : borrow morpho module w (params w) quantity = .ok v) :
    Steady w v ∧ Called w v (fun self => morpho.borrow quantity 0 self self) :=
  ⟨invokeMorpho_steady h, w.tokens, v.tokens, (invokeMorpho_eq_ok h).2⟩

theorem repayBorrow_effect {shares : Nat}
    (h : repayBorrow morpho module w (params w) quantity shares = .ok v) :
    Steady w v ∧ Called w v (fun self =>
      if 0 < shares then morpho.repay 0 shares self else morpho.repay quantity 0 self) := by
  rw [repayBorrow_eq] at h
  obtain ⟨w₁, happrove, h⟩ := bind_eq_ok.mp h
  rw [← (invokeApprove_steady happrove).1.params] at h
  exact approved_effect (bind_eq_ok.mpr ⟨w₁, happrove, h⟩)

theorem executeTrade_steady {actionInfo : ActionInfo} {sendToken receiveToken : Address}
    {data : List UInt8} {received : Nat}
    (h : executeTrade module exchanges w actionInfo sendToken receiveToken data = .ok (v, received)) :
    Steady w v ∧ v.rest = w.rest := by
  simp only [executeTrade, World.invoke, bind_eq_ok, pure_eq_ok, Prod.mk.injEq] at h
  obtain ⟨w₁, happrove, _, ⟨_, _, _, _, rfl⟩, _, _, _, _, rfl, _⟩ := h
  obtain ⟨hsteady, hrest⟩ := invokeApprove_steady happrove
  exact ⟨⟨hsteady.setToken, hsteady.others⟩, hrest⟩

theorem accrueProtocolFee_steady {receiveToken : Address} {fee : Nat}
    (h : accrueProtocolFee module w receiveToken quantity = .ok (v, fee)) :
    Steady w v ∧ v.rest = w.rest := by
  simp only [accrueProtocolFee, bind_eq_ok, pure_eq_ok, Prod.mk.injEq] at h
  obtain ⟨_, _, _, htransfer, rfl, _⟩ := h
  have hsame := (World.strictInvokeTransfer_balance htransfer).1
  exact ⟨sameBut_steady hsame, hsame.rest⟩

theorem callSetToken_steady {call : SetToken → Result SetToken}
    (honly : ∀ t, call w.setToken = .ok t → w.setToken.OnlyPositions t)
    (h : w.callSetToken call = .ok v) : Steady w v ∧ v.rest = w.rest := by
  obtain ⟨t, ht, rfl⟩ := World.callSetToken_eq_ok.mp h
  exact ⟨⟨honly t ht, rfl⟩, rfl⟩

theorem updateRepayDefaultPosition_steady {actionInfo : ActionInfo} {repayAsset : Address}
    (h : updateRepayDefaultPosition module w actionInfo repayAsset = .ok v) :
    Steady w v ∧ v.rest = w.rest := by
  unfold updateRepayDefaultPosition at h
  dsimp only at h
  split_ifs at h
  · refine callSetToken_steady (fun t ht => ?_) h
    simp only [Position.calculateAndEditDefaultPosition, bind_eq_ok] at ht
    obtain ⟨_, _, _, _, _, _, ht⟩ := ht
    exact SetToken.editDefaultPosition_only ht
  · obtain rfl := pure_eq_ok.mp h
    exact ⟨.refl w, rfl⟩

theorem syncPosition_only {s t : SetToken} {component : Address} {unit : Int}
    (h : syncPosition module s component unit = .ok t) : s.OnlyPositions t := by
  unfold syncPosition at h
  obtain ⟨_, _, h⟩ := bind_eq_ok.mp h
  split_ifs at h
  · exact SetToken.editExternalPosition_only h
  · exact .of_eq (pure_eq_ok.mp h)

theorem syncPositions_steady (h : syncPositions morpho module w = .ok v) :
    Steady w v ∧ v.rest = w.rest := by
  obtain ⟨_, _, s₁, _, hcollateral, hloan, hv⟩ := syncPositions_eq h
  have hrest : v.rest = w.rest := by rw [hv]
  refine ⟨⟨(syncPosition_only hcollateral).trans (syncPosition_only hloan), ?_⟩, hrest⟩
  rw [hrest]

end Parts

/-! ### The operations -/

section Operations
variable {sender : Address} {units minUnits : Nat} {adapter : String} {data : List UInt8}

/-- Where nothing but Morpho's state is read of `rest`, a call is one from a world with that state. -/
theorem Called.of_rest {u : LeverageWorld μ} {call : Address → Call μ} (h : Called v u call)
    (hsteady : Steady w v) (hrest : v.rest = w.rest) : Called w u call := by
  obtain ⟨tokens, tokens', hcall⟩ := h
  rw [hsteady.self, hsteady.params, hrest] at hcall
  exact ⟨tokens, tokens', hcall⟩

theorem Called.to_rest {u : LeverageWorld μ} {call : Address → Call μ} (h : Called w v call)
    (hrest : u.rest = v.rest) : Called w u call := by
  obtain ⟨tokens, tokens', hcall⟩ := h
  rw [← hrest] at hcall
  exact ⟨tokens, tokens', hcall⟩

/-- Borrowed, then supplied. -/
theorem lever_effect
    (h : lever morpho module exchanges w sender units minUnits adapter data = .ok v) :
    ∃ w₁ borrowed supplied, Steady w w₁ ∧ Steady w₁ v ∧
      Called w w₁ (fun self => morpho.borrow borrowed 0 self self) ∧
      Called w₁ v (morpho.supplyCollateral supplied ·) := by
  simp only [lever, bind_eq_ok] at h
  obtain ⟨_, _, leverInfo, _, w₁, hborrow, ⟨w₂, _⟩, htrade, ⟨w₃, _⟩, hfee, supplied, _, w₄, hdeposit,
    hsync⟩ := h
  obtain ⟨hsteady₁, hborrowed⟩ := borrow_effect hborrow
  obtain ⟨hsteady₂, hrest₂⟩ := executeTrade_steady htrade
  obtain ⟨hsteady₃, hrest₃⟩ := accrueProtocolFee_steady hfee
  have hsteady₁₃ : Steady w₁ w₃ := hsteady₂.trans hsteady₃
  rw [← (hsteady₁.trans hsteady₁₃).params] at hdeposit
  obtain ⟨hsteady₄, hsupplied⟩ := deposit_effect hdeposit
  obtain ⟨hsteady₅, hrest₅⟩ := syncPositions_steady hsync
  refine ⟨w₁, _, supplied, hsteady₁, hsteady₁₃.trans (hsteady₄.trans hsteady₅), hborrowed, ?_⟩
  exact (hsupplied.of_rest hsteady₁₃ (hrest₃.trans hrest₂)).to_rest hrest₅

/-- What a delever repays: what the exchange pays for the collateral, less the protocol's fee. The
world is the one in which it is repaid. -/
def deleverProceeds (morpho : MorphoBlue μ) (module : Address)
    (exchanges : Address → ExchangeAdapter) (w : LeverageWorld μ)
    (redeemQuantityUnits minRepayQuantityUnits : Nat) (tradeAdapterName : String)
    (tradeData : List UInt8) : Result (LeverageWorld μ × Nat) := do
  let marketParams := params w
  let deleverInfo ← createAndValidateActionInfo module w marketParams.collateralToken
    marketParams.loanToken redeemQuantityUnits minRepayQuantityUnits tradeAdapterName false
  let w ← withdraw morpho module w marketParams deleverInfo.notionalSendQuantity
  let (w, postTradeReceiveQuantity) ← executeTrade module exchanges w deleverInfo
    marketParams.collateralToken marketParams.loanToken tradeData
  let (w, protocolFee) ←
    accrueProtocolFee module w marketParams.loanToken postTradeReceiveQuantity
  let repayQuantity ← SafeMath.sub postTradeReceiveQuantity protocolFee
  pure (w, repayQuantity)

/-- Withdrawn, then repaid. -/
theorem delever_effect
    (h : delever morpho module exchanges w sender units minUnits adapter data = .ok v) :
    ∃ w₁ w₃ withdrawn repaid,
      deleverProceeds morpho module exchanges w units minUnits adapter data = .ok (w₃, repaid) ∧
      Steady w w₁ ∧ Steady w₁ v ∧
      Called w w₁ (fun self => morpho.withdrawCollateral withdrawn self self) ∧
      Called w₁ v (morpho.repay repaid 0 ·) := by
  simp only [delever, bind_eq_ok] at h
  obtain ⟨_, _, deleverInfo, hinfo, w₁, hwithdraw, ⟨w₂, received⟩, htrade, ⟨w₃, fee⟩, hfee, repaid,
    hrepaid, w₄, hrepay, w₅, hupdate, hsync⟩ := h
  obtain ⟨hsteady₁, hwithdrawn⟩ := withdraw_effect hwithdraw
  obtain ⟨hsteady₂, hrest₂⟩ := executeTrade_steady htrade
  obtain ⟨hsteady₃, hrest₃⟩ := accrueProtocolFee_steady hfee
  have hsteady₁₃ : Steady w₁ w₃ := hsteady₂.trans hsteady₃
  rw [← (hsteady₁.trans hsteady₁₃).params] at hrepay
  obtain ⟨hsteady₄, hcalled⟩ := repayBorrow_effect hrepay
  obtain ⟨hsteady₅, hrest₅⟩ := updateRepayDefaultPosition_steady hupdate
  obtain ⟨hsteady₆, hrest₆⟩ := syncPositions_steady hsync
  refine ⟨w₁, w₃, _, repaid, ?_, hsteady₁,
    hsteady₁₃.trans (hsteady₄.trans (hsteady₅.trans hsteady₆)), hwithdrawn, ?_⟩
  · simp only [deleverProceeds, bind_eq_ok, pure_eq_ok]
    exact ⟨deleverInfo, hinfo, w₁, hwithdraw, ⟨w₂, received⟩, htrade, ⟨w₃, fee⟩, hfee, repaid,
      hrepaid, rfl⟩
  · exact (hcalled.of_rest hsteady₁₃ (hrest₃.trans hrest₂)).to_rest (hrest₆.trans hrest₅)

theorem deleverToZeroBorrowBalance_steady
    (h : deleverToZeroBorrowBalance morpho module exchanges w sender units adapter data = .ok v) :
    Steady w v := by
  simp only [deleverToZeroBorrowBalance, bind_eq_ok] at h
  obtain ⟨_, _, _, _, _, _, _, _, w₁, hwithdraw, ⟨w₂, _⟩, htrade, w₃, hrepay, w₄, hupdate, hsync⟩ := h
  have hsteady₂ : Steady w w₂ := (withdraw_effect hwithdraw).1.trans (executeTrade_steady htrade).1
  rw [← hsteady₂.params] at hrepay
  have hsteady₃ : Steady w w₃ := hsteady₂.trans (repayBorrow_effect hrepay).1
  exact hsteady₃.trans ((updateRepayDefaultPosition_steady hupdate).1.trans
    (syncPositions_steady hsync).1)

/-- The collateral of the SetToken is supplied. -/
theorem enterCollateralPosition_effect
    (h : enterCollateralPosition morpho module w sender = .ok v) :
    Steady w v ∧ ∃ supplied, Called w v (morpho.supplyCollateral supplied ·) := by
  simp only [enterCollateralPosition, bind_eq_ok] at h
  obtain ⟨_, _, _, _, w₁, hdeposit, w₂, hedit, hsync⟩ := h
  obtain ⟨hsteady₁, hsupplied⟩ := deposit_effect hdeposit
  obtain ⟨hsteady₂, hrest₂⟩ :=
    callSetToken_steady (fun t ht => SetToken.editDefaultPosition_only ht) hedit
  obtain ⟨hsteady₃, hrest₃⟩ := syncPositions_steady (sync_eq hsync).2
  exact ⟨hsteady₁.trans (hsteady₂.trans hsteady₃), _, hsupplied.to_rest (hrest₃.trans hrest₂)⟩

end Operations

/-! ### The debt -/

section Debt
variable (hdebts : morpho.KeepsDebts)
include hdebts

theorem Called.supplyCollateral {assets : Nat} (h : Called w v (morpho.supplyCollateral assets ·))
    (hsteady : Steady w v) : owed morpho v = owed morpho w := by
  obtain ⟨tokens, tokens', hcall⟩ := h
  rw [owed, hsteady.params, hsteady.self]
  exact hdebts.supplyCollateral hcall

theorem Called.withdrawCollateral {assets : Nat}
    (h : Called w v (fun self => morpho.withdrawCollateral assets self self))
    (hsteady : Steady w v) :
    owed morpho v = owed morpho w ∧ ∃ market,
      morpho.accruedMarket w.rest.others.morpho w.rest.others.timestamp (params w) = .ok market ∧
      morpho.accruedMarket v.rest.others.morpho v.rest.others.timestamp (params v) = .ok market := by
  obtain ⟨tokens, tokens', hcall⟩ := h
  rw [owed, hsteady.params, hsteady.self, hsteady.timestamp]
  exact hdebts.withdrawCollateral hcall

theorem Called.borrow {assets : Nat} (h : Called w v (fun self => morpho.borrow assets 0 self self))
    (hsteady : Steady w v) : owed morpho w < owed morpho v := by
  obtain ⟨tokens, tokens', hcall⟩ := h
  rw [owed, owed, hsteady.params, hsteady.self]
  exact hdebts.borrow hcall

theorem Called.repayAssets {assets : Nat} (h : Called w v (morpho.repay assets 0 ·))
    (hsteady : Steady w v) :
    ∃ market,
      morpho.accruedMarket w.rest.others.morpho w.rest.others.timestamp (params w) = .ok market ∧
      owed morpho v + SharesMath.sharesOf assets market.totalBorrowAssets market.totalBorrowShares =
        owed morpho w := by
  obtain ⟨tokens, tokens', hcall⟩ := h
  rw [owed, owed, hsteady.params, hsteady.self]
  exact hdebts.repayAssets hcall

end Debt

end MorphoLeverageModule

end IndexProtocol
