import IndexProtocol.Issuance.Collateral
import IndexProtocol.GeneralIndex.Run
import IndexProtocol.Auction.Run
import IndexProtocol.Airdrop.Run
import IndexProtocol.Trading.WrapModule
import IndexProtocol.Trading.Rebasing

/-! What each module leaves of the backing of a token.

Issuance and fees, the two modules that rebalance, the one that follows rebasing balances and the
one that absorbs airdrops, each with all of its actions: a token that was backed stays so. Issuing
and redeeming keep the balance and the shares in step; a trade or a bid rewrites the units of its
two tokens for their balances, and takes none of the others; the rest changes neither what is held
nor how many shares there are. -/
namespace IndexProtocol
open Evm PreciseUnitMath

namespace SetToken
variable {s t : SetToken} {sender : Address}

/-- No share was made, and none is worth other units. -/
structure SameShares (s t : SetToken) : Prop where
  positions : s.SamePositions t
  totalSupply : t.totalSupply = s.totalSupply

theorem initializeModule_sameShares (h : s.initializeModule sender = .ok t) : s.SameShares t :=
  ⟨(initializeModule_same h).1, (initializeModule_same h).2⟩

theorem lock_sameShares (h : s.lock sender = .ok t) : s.SameShares t := by
  obtain ⟨_, _, _, rfl⟩ := lock_eq_ok.mp h
  exact ⟨⟨rfl, rfl, rfl, rfl⟩, rfl⟩

theorem unlock_sameShares (h : s.unlock sender = .ok t) : s.SameShares t := by
  obtain ⟨_, _, _, _, rfl⟩ := unlock_eq_ok.mp h
  exact ⟨⟨rfl, rfl, rfl, rfl⟩, rfl⟩

theorem finishRemoveModule_sameShares {module : Address} (h : s.finishRemoveModule module = .ok t) :
    s.SameShares t := by
  simp only [finishRemoveModule, bind_eq_ok, pure_eq_ok] at h
  obtain ⟨_, _, rfl⟩ := h
  exact ⟨⟨rfl, rfl, rfl, rfl⟩, rfl⟩

end SetToken

namespace World
variable {χ : Type}

/-- The SetToken is well formed, and what it holds of the token pays its unit of every share. -/
structure Pays (w : World χ) (token : Address) : Prop where
  wellFormed : w.setToken.WellFormed
  backed : w.Backed token

/-- A call from elsewhere makes no share, and changes no unit. -/
def SteadyCall (w : World χ) (call : SetToken.Call) : Prop :=
  ∀ s, w.setToken.call call = .ok s → w.setToken.SameShares s

/-- The balance does not fall by itself. -/
def SteadyTokens (w : World χ) (token : Address) (tokens : Address → Erc20) : Prop :=
  w.balance token ≤ (tokens token).balanceOf w.setToken.self

variable {w u v : World χ} {token : Address}

namespace Pays

theorem of_same (h : w.Pays token) (hsame : w.setToken.SameShares v.setToken)
    (hbalance : w.balance token ≤ v.balance token) : v.Pays token := by
  refine ⟨h.wellFormed.of_same hsame.positions, h.backed.mono hbalance hsame.totalSupply.le ?_⟩
  rw [unit, unit, hsame.positions.defaultRealUnit]

/-- Only the state of other contracts changed. -/
theorem of_held (h : w.Pays token) (hset : v.setToken = w.setToken) (htokens : v.tokens = w.tokens) :
    v.Pays token := by
  refine h.of_same (hset ▸ ⟨.refl _, rfl⟩) ?_
  rw [balance, balance, hset, htokens]

/-- A call of the SetToken by a module, after its own state was written. -/
theorem of_callSetToken {call : SetToken → Result SetToken} (h : w.Pays token)
    (hcall : u.callSetToken call = .ok v) (hset : u.setToken = w.setToken)
    (htokens : u.tokens = w.tokens)
    (hsame : ∀ s, call w.setToken = .ok s → w.setToken.SameShares s) : v.Pays token := by
  obtain ⟨s, hs, rfl⟩ := callSetToken_eq_ok.mp hcall
  rw [hset] at hs
  refine h.of_same (hsame s hs) ?_
  rw [balance, balance, (hsame s hs).positions.self, htokens]

/-- A token moved by another account, never out of the SetToken. -/
theorem of_callToken {called : Address} {call : Erc20 → Result Erc20} (h : w.Pays token)
    (hcall : w.callToken called call = .ok v)
    (hle : ∀ t, call (w.tokens called) = .ok t →
      (w.tokens called).balanceOf w.setToken.self ≤ t.balanceOf w.setToken.self) :
    v.Pays token := by
  obtain ⟨hsame, ht⟩ := callToken_sameBut hcall
  refine h.of_same (hsame.setToken ▸ ⟨.refl _, rfl⟩) ?_
  by_cases htoken : token = called
  · subst htoken
    rw [balance, balance, hsame.setToken]
    exact hle _ ht
  · exact (hsame.balance_of_ne htoken).ge

/-- A loop over the state of other contracts. -/
theorem of_runs {α : Type} {step : World χ → α → Result (World χ)} {as : List α} (h : w.Pays token)
    (hrun : runs step w as = .ok v)
    (hstep : ∀ u a t, step u a = .ok t → t.setToken = u.setToken ∧ t.tokens = u.tokens) :
    v.Pays token :=
  runs_invariant (fun u : World χ => u.Pays token)
    (fun u a t hu ht => hu.of_held (hstep u a t ht).1 (hstep u a t ht).2) h hrun

end Pays

theorem Rebalanced.pays {one two : Address} {t : World χ} (h : w.Rebalanced v one two u t)
    (hbacked : w.Backed token) : v.Pays token :=
  ⟨h.wellFormed, h.backed (.inr (.inr hbacked))⟩

end World

/-! ### Issuance and fees -/

namespace Fund
variable {issuance streaming token : Address} {hooks : Address → PreIssueHook FundState} {w v : Fund}

/-- The balance covers the unit of every share before it is rounded. -/
def CoversUnrounded (w : Fund) (token : Address) : Prop :=
  w.setToken.defaultPositionVirtualUnit token * w.setToken.positionMultiplier *
      w.setToken.totalSupply ≤
    (w.balance token : Int) * preciseUnitInt * preciseUnitInt

instance : Decidable (CoversUnrounded w token) := inferInstanceAs (Decidable (_ ≤ (_ : Int)))

/-- An action that accrues a fee mints no shares for it, or finds the token covered. -/
def Covers (token : Address) (w : Fund) : Action → Prop
  | .accrueFee timestamp => MintsNothing timestamp w ∨ CoversUnrounded w token
  | .updateStreamingFee timestamp _ _ => MintsNothing timestamp w ∨ CoversUnrounded w token
  | _ => True

theorem notMem_backed {s : SetToken} {tokens : Address → Erc20} {state : FundState}
    (hwf : s.WellFormed) (hnot : token ∉ s.components) :
    World.Backed ⟨s, tokens, state⟩ token := by
  rw [World.Backed, World.unit, hwf.defaultRealUnit_of_notMem hnot]
  simp [Covered]

theorem issue_pays {hook sender recipient : Address} {quantity : Nat} (h : w.Pays token)
    (hissue : BasicIssuanceModule.issue issuance hooks hook w sender quantity recipient = .ok v) :
    v.Pays token := by
  obtain ⟨hmint, _, hin, _⟩ := BasicIssuanceModule.issue_eq h.wellFormed.components.nodup hissue
  obtain ⟨hsame, hsupply⟩ := SetToken.mint_totalSupply hmint
  have hwf := h.wellFormed.of_same hsame
  refine ⟨hwf, ?_⟩
  by_cases hc : token ∈ w.setToken.components
  · obtain ⟨unit, hunit, hbalance⟩ := hin token hc
    have hbacked := h.backed
    rw [World.Backed, World.unit, hunit, Int.toNat_natCast] at hbacked
    rw [World.Backed, World.unit, hsame.defaultRealUnit, hunit, Int.toNat_natCast]
    exact hbacked.join preciseUnit_pos hbalance.ge hsupply
  · exact notMem_backed hwf (hsame.components ▸ hc)

theorem redeem_pays {sender recipient : Address} {quantity : Nat} (h : w.Pays token)
    (hredeem : BasicIssuanceModule.redeem issuance w sender quantity recipient = .ok v) :
    v.Pays token := by
  obtain ⟨hburn, _, hin, _⟩ := BasicIssuanceModule.redeem_eq h.wellFormed.components.nodup hredeem
  obtain ⟨hsame, hsupply⟩ := SetToken.burn_totalSupply hburn
  have hwf := h.wellFormed.of_same hsame
  refine ⟨hwf, ?_⟩
  by_cases hc : token ∈ w.setToken.components
  · obtain ⟨unit, hunit, hbalance⟩ := hin token hc
    have hbacked := h.backed
    rw [World.Backed, World.unit, hunit, Int.toNat_natCast] at hbacked
    rw [World.Backed, World.unit, hsame.defaultRealUnit, hunit, Int.toNat_natCast]
    exact hbacked.leave hbalance hsupply
  · exact notMem_backed hwf (hsame.components ▸ hc)

/-- An accrual that mints nothing leaves a smaller unit, and another one dilutes it. -/
theorem accrueFee_pays {timestamp : Nat} {result : SetToken × FeeState} (state : FeeState)
    (h : w.Pays token) (hcondition : MintsNothing timestamp w ∨ CoversUnrounded w token)
    (haccrue : StreamingFeeModule.accrueFee streaming timestamp w.setToken w.rest.feeState =
      .ok result) :
    (withFees w (result.1, state)).Pays token := by
  rcases StreamingFeeModule.accrueFee_eq haccrue with hsame | hfee
  · rw [hsame]
    exact ⟨h.wellFormed, h.backed⟩
  · obtain ⟨feePercentage, feeQuantity, hpercentage, hquantity, ha⟩ :=
      StreamingFeeModule.actualizeFee_eq hfee
    have hbalance : (withFees w (result.1, state)).balance token = w.balance token := by
      simp only [World.balance, withFees, ha.self]
    refine ⟨StreamingFeeModule.actualizeFee_wellFormed h.wellFormed hfee, ?_⟩
    rw [World.Backed, hbalance]
    rcases hcondition with hnothing | hcovers
    · obtain rfl := hnothing _ _ hpercentage hquantity
      obtain ⟨_, hle, _⟩ := ha.shrinks h.wellFormed.multiplier_pos
      refine h.backed.mono le_rfl ha.totalSupply.le ?_
      refine Int.toNat_le_toNat (Int.ediv_le_ediv preciseUnitInt_pos ?_)
      simp only [withFees, SetToken.defaultPositionVirtualUnit, ha.componentPositions]
      exact Int.mul_le_mul_of_nonneg_left hle (h.wellFormed.sound.default_nonneg token)
    · exact accrued_covered h.wellFormed ha hcovers

theorem step_pays {a : Action} (h : w.Pays token) (hcondition : Covers token w a)
    (hstep : step issuance streaming hooks w a = .ok v) : v.Pays token := by
  cases a with
  | initializeIssuance sender preIssueHook =>
    simp only [step, BasicIssuanceModule.initializeSet, bind_eq_ok, pure_eq_ok] at hstep
    obtain ⟨_, ⟨_, _, _, _, s, hs, rfl⟩, rfl⟩ := hstep
    have hsame := SetToken.initializeModule_sameShares hs
    refine h.of_same hsame ?_
    simp only [World.balance, hsame.positions.self]
    exact le_rfl
  | initializeFees timestamp sender settings =>
    simp only [step, StreamingFeeModule.initializeSet, map_eq_ok, bind_eq_ok, pure_eq_ok] at hstep
    obtain ⟨_, ⟨_, _, _, _, _, _, _, _, _, _, s, hs, rfl⟩, rfl⟩ := hstep
    have hsame := SetToken.initializeModule_sameShares hs
    refine h.of_same hsame ?_
    simp only [World.balance, withFees, hsame.positions.self]
    exact le_rfl
  | issue sender recipient quantity => exact issue_pays h hstep
  | redeem sender recipient quantity => exact redeem_pays h hstep
  | accrueFee timestamp =>
    simp only [step, map_eq_ok] at hstep
    obtain ⟨result, hresult, rfl⟩ := hstep
    exact accrueFee_pays _ h hcondition hresult
  | updateStreamingFee timestamp sender newFee =>
    simp only [step, StreamingFeeModule.updateStreamingFee, map_eq_ok, bind_eq_ok,
      pure_eq_ok] at hstep
    obtain ⟨_, ⟨_, _, _, _, _, _, result, hresult, rfl⟩, rfl⟩ := hstep
    exact accrueFee_pays _ h hcondition hresult
  | updateFeeRecipient sender newFeeRecipient =>
    simp only [step, bind_eq_ok, pure_eq_ok] at hstep
    obtain ⟨_, _, rfl⟩ := hstep
    exact ⟨h.wellFormed, h.backed⟩
  | changeController controller =>
    simp only [step, pure_eq_ok] at hstep
    subst hstep
    exact h.of_same ⟨⟨rfl, rfl, rfl, rfl⟩, rfl⟩ le_rfl
  | transferToken called caller recipient amount =>
    simp only [step, bind_eq_ok, require_eq_ok, exists_const] at hstep
    refine h.of_callToken hstep.2 fun t ht => ?_
    have hmoved := (Erc20.transferInternal_moved ht).1 w.setToken.self
    rw [if_neg (Ne.symm hstep.1)] at hmoved
    omega
  | approveToken called caller spender amount =>
    simp only [step, bind_eq_ok, require_eq_ok, exists_const] at hstep
    refine h.of_callToken hstep.2 fun t ht => ?_
    rw [Erc20.balanceOf, Erc20.balanceOf, (Erc20.approveInternal_balances ht).1]
  | transferShares caller recipient amount =>
    simp only [step, bind_eq_ok, pure_eq_ok] at hstep
    obtain ⟨erc20, herc20, rfl⟩ := hstep
    exact h.of_same ⟨⟨rfl, rfl, rfl, rfl⟩, (Erc20.transferInternal_moved herc20).2⟩ le_rfl

end Fund

/-! ### Rebalances -/

namespace AuctionRebalanceModuleV1
variable {adapters : Address → PriceAdapter} {module sender component quoteAsset token : Address}
  {amount limit : Nat} {isSell : Bool} {w u v : AuctionWorld}

/-- The actions of other modules are steady. -/
def Steady (token : Address) (w : AuctionWorld) : Action → Prop
  | .callSetToken call => w.SteadyCall call
  | .elsewhere tokens _ => w.SteadyTokens token tokens
  | _ => True

/-- The transfers of a bid, with the protocol's fee, touch its two tokens only. -/
theorem executeBid_others {info : BidInfo} {w₁ w₂ : AuctionWorld} {fee : Nat}
    (hexecute : executeBid module w sender info = .ok w₁)
    (hfee : accrueProtocolFee module w₁ info = .ok (w₂, fee)) (hsend : token ≠ info.sendToken)
    (hreceive : token ≠ info.receiveToken) : w₂.balance token = w.balance token := by
  simp only [executeBid, bind_eq_ok] at hexecute
  obtain ⟨w₀, htransfer, hpaid⟩ := hexecute
  simp only [accrueProtocolFee, ModuleBase.getModuleFee, bind_eq_ok, pure_eq_ok,
    Prod.mk.injEq] at hfee
  obtain ⟨_, _, _, _, _, hpay, rfl, _⟩ := hfee
  rw [(World.strictInvokeTransfer_balance hpay).1.balance_of_ne hreceive,
    (World.strictInvokeTransfer_balance hpaid).1.balance_of_ne hsend,
    (World.transferFrom_balance htransfer).1.balance_of_ne hreceive]

theorem bid_pays (h : w.Pays token)
    (hbid : bid adapters module w sender component quoteAsset amount limit isSell = .ok v) :
    v.Pays token := by
  simp only [bid, validateOnlyAllowedBidder, validateBidTargets, bind_eq_ok, require_eq_ok,
    exists_const, pure_eq_ok] at hbid
  obtain ⟨_, ⟨hquote, _⟩, info, hinfo, w₁, hexecute, ⟨w₂, fee⟩, hfee, ⟨v', _, _⟩, hupdate, rfl⟩ := hbid
  obtain ⟨_, quantity, _, _, hsupply, hsent, hreceived, htokens⟩ := createBidInfo_eq hinfo
  have hne : info.sendToken ≠ info.receiveToken := by
    cases isSell with
    | true => exact htokens.1 ▸ htokens.2.1 ▸ hquote
    | false => exact htokens.1 ▸ htokens.2.1 ▸ hquote.symm
  have hset : w₂.setToken = w.setToken := (executeBid_eq hne hreceived hexecute hfee).1
  simp only [updatePositionState, updatePosition, bind_eq_ok, pure_eq_ok, Prod.mk.injEq] at hupdate
  obtain ⟨t, hsend, t', hreceive, _, _, _, _, rfl, _⟩ := hupdate
  exact (World.rebalanced_of_edits h.wellFormed hset
    (fun other hother hother' => (executeBid_others hexecute hfee hother hother').ge) hsupply hsent
    hreceived hsend hreceive).pays h.backed

theorem initializeSet_pays (h : w.Pays token) (hstep : initializeSet module w sender = .ok v) :
    v.Pays token := by
  simp only [initializeSet, bind_eq_ok] at hstep
  obtain ⟨_, _, _, _, positions, _, u, htargets, multiplier, _, hcall⟩ := hstep
  have hu : u.Pays token := h.of_runs htargets fun u a t ht => by
    simp only [bind_eq_ok, pure_eq_ok] at ht
    obtain ⟨_, _, _, _, rfl⟩ := ht
    exact ⟨rfl, rfl⟩
  exact hu.of_callSetToken hcall rfl rfl fun _ => SetToken.initializeModule_sameShares

theorem startRebalance_pays {newComponents : List Address}
    {newParams oldParams : List AuctionExecutionParams} {shouldLock : Bool}
    {duration multiplier : Nat} (h : w.Pays token)
    (hstep : startRebalance adapters module w sender quoteAsset newComponents newParams oldParams
      shouldLock duration multiplier = .ok v) : v.Pays token := by
  simp only [startRebalance, bind_eq_ok, pure_eq_ok] at hstep
  obtain ⟨_, _, u, hlock, ⟨_, _⟩, _, u', hinfo, rfl⟩ := hstep
  have hu : u.Pays token := by
    split_ifs at hlock
    · exact h.of_callSetToken hlock rfl rfl fun _ => SetToken.lock_sameShares
    · obtain rfl := pure_eq_ok.mp hlock
      exact h
  have hu' : u'.Pays token := hu.of_runs hinfo fun u a t ht => by
    simp only [bind_eq_ok, pure_eq_ok] at ht
    obtain ⟨_, _, rfl⟩ := ht
    exact ⟨rfl, rfl⟩
  exact hu'.of_held rfl rfl

theorem step_pays {a : Action} (h : w.Pays token) (hsteady : Steady token w a)
    (hstep : step adapters module w a = .ok v) : v.Pays token := by
  cases a with
  | initializeSet sender => exact initializeSet_pays h hstep
  | startRebalance sender quoteAsset newComponents newParams oldParams shouldLock duration
      multiplier => exact startRebalance_pays h hstep
  | bid sender component quoteAsset amount limit isSell => exact bid_pays h hstep
  | raiseAssetTargets sender =>
    simp only [step, raiseAssetTargets, bind_eq_ok, pure_eq_ok] at hstep
    obtain ⟨_, _, _, _, _, _, _, _, _, _, _, _, _, _, rfl⟩ := hstep
    exact h.of_held rfl rfl
  | unlock =>
    simp only [step, unlock, bind_eq_ok] at hstep
    obtain ⟨_, _, _, _, _, _, hcall⟩ := hstep
    exact h.of_callSetToken hcall rfl rfl fun _ => SetToken.unlock_sameShares
  | setRaiseTargetPercentage sender raiseTargetPercentage =>
    simp only [step, setRaiseTargetPercentage, bind_eq_ok, pure_eq_ok] at hstep
    obtain ⟨_, _, rfl⟩ := hstep
    exact h.of_held rfl rfl
  | setBidderStatus sender bidders statuses =>
    simp only [step, setBidderStatus, bind_eq_ok, pure_eq_ok] at hstep
    obtain ⟨_, _, _, _, _, _, rfl⟩ := hstep
    exact h.of_held rfl rfl
  | setAnyoneBid sender status =>
    simp only [step, setAnyoneBid, bind_eq_ok, pure_eq_ok] at hstep
    obtain ⟨_, _, rfl⟩ := hstep
    exact h.of_held rfl rfl
  | removeModule sender =>
    simp only [step, removeFromSet, bind_eq_ok] at hstep
    obtain ⟨_, _, hcall⟩ := hstep
    exact h.of_callSetToken hcall rfl rfl fun _ => SetToken.finishRemoveModule_sameShares
  | callSetToken call =>
    rw [step] at hstep
    exact h.of_callSetToken hstep rfl rfl hsteady
  | elsewhere tokens timestamp =>
    simp only [step, bind_eq_ok, pure_eq_ok] at hstep
    obtain ⟨_, _, rfl⟩ := hstep
    exact h.of_same ⟨.refl _, rfl⟩ hsteady

end AuctionRebalanceModuleV1

namespace GeneralIndexModule
variable {adapters : Address → ExchangeAdapter}
  {exchange : Address → Nat → List UInt8 → IndexWorld → Result IndexWorld}
  {module weth sender origin component token : Address} {limit : Nat} {w v : IndexWorld}

/-- Of the SetToken nothing changed but balances, and none went down of a token that is not
traded. -/
structure Spared (info : TradeInfo) (w v : IndexWorld) : Prop where
  setToken : v.setToken = w.setToken
  others : ∀ token, token ≠ info.sendToken → token ≠ info.receiveToken →
    w.balance token ≤ v.balance token

/-- The exchange that the adapter has the SetToken call takes no token but what is sold to it,
however much. -/
def ExchangeSpares (adapters : Address → ExchangeAdapter)
    (exchange : Address → Nat → List UInt8 → IndexWorld → Result IndexWorld)
    (info : TradeInfo) (w : IndexWorld) : Prop :=
  ∀ u v targetExchange callValue methodData, u.setToken = w.setToken →
    (adapters info.exchangeAdapter).getTradeCalldata info.sendToken info.receiveToken
      w.setToken.self info.isSendTokenFixed info.sendQuantity info.floatingQuantityLimit
      info.exchangeData = .ok (targetExchange, callValue, methodData) →
    exchange targetExchange callValue methodData u = .ok v → Spared info u v

/-- The exchange of a trade takes no token but what is sold to it, and the actions of other modules
are steady. -/
def Steady (adapters : Address → ExchangeAdapter)
    (exchange : Address → Nat → List UInt8 → IndexWorld → Result IndexWorld)
    (module weth token : Address) (w : IndexWorld) : Action → Prop
  | .trade _ _ component ethQuantityLimit => ∀ info,
      createTradeInfo module weth w component ethQuantityLimit = .ok info →
        ExchangeSpares adapters exchange info w
  | .tradeRemainingWETH _ _ component minComponentReceived => ∀ info,
      createTradeRemainingInfo module weth w component minComponentReceived = .ok info →
        ExchangeSpares adapters exchange info w
  | .callSetToken call => w.SteadyCall call
  | .elsewhere tokens _ => w.SteadyTokens token tokens
  | _ => True

/-- An exact exchange spares the other tokens. -/
theorem ExactExchange.spares {info : TradeInfo} (hexact : ExactExchange adapters exchange info w) :
    ExchangeSpares adapters exchange info w := by
  intro u v targetExchange callValue methodData hset hcalldata hcall
  have hexchanged := hexact u v targetExchange callValue methodData hset hcalldata hcall
  exact ⟨hexchanged.setToken, fun token hsend hreceive =>
    (hexchanged.others token hsend hreceive).ge⟩

theorem executeTrade_spared {info : TradeInfo} (hspares : ExchangeSpares adapters exchange info w)
    (h : executeTrade adapters exchange module w info = .ok v) : Spared info w v := by
  obtain ⟨u, _, _, _, hset, hbalance, hcalldata, hcall⟩ := executeTrade_called h
  have hspared := hspares u v _ _ _ hset hcalldata hcall
  refine ⟨hspared.setToken.trans hset, fun token hsend hreceive => ?_⟩
  rw [← hbalance]
  exact hspared.others token hsend hreceive

/-- The fee is of what was received. -/
theorem accrueProtocolFee_spared {info : TradeInfo} {u : IndexWorld} {fee : Nat}
    (hspared : Spared info w u) (h : accrueProtocolFee module u info = .ok (v, fee)) :
    Spared info w v := by
  simp only [accrueProtocolFee, ModuleBase.getModuleFee, bind_eq_ok, pure_eq_ok, Prod.mk.injEq] at h
  obtain ⟨_, _, _, _, _, hpay, rfl, rfl⟩ := h
  obtain ⟨hsame, _⟩ := World.strictInvokeTransfer_balance hpay
  refine ⟨hsame.setToken.trans hspared.setToken, fun token hsend hreceive => ?_⟩
  rw [hsame.balance_of_ne hreceive]
  exact hspared.others token hsend hreceive

/-- What a trade does once its info is there. -/
theorem executed_pays {info : TradeInfo} {w₁ w₂ : IndexWorld} {fee : Nat} {amounts : Nat × Nat}
    (h : w.Pays token) (hsupply : info.setTotalSupply = w.setToken.totalSupply)
    (hsent : info.preTradeSendTokenBalance = w.balance info.sendToken)
    (hreceived : info.preTradeReceiveTokenBalance = w.balance info.receiveToken)
    (hspares : ExchangeSpares adapters exchange info w)
    (hexecute : executeTrade adapters exchange module w info = .ok w₁)
    (hfee : accrueProtocolFee module w₁ info = .ok (w₂, fee))
    (hupdate : updatePositionStateAndTimestamp module w₂ info component = .ok (v, amounts)) :
    v.Pays token := by
  have hspared := accrueProtocolFee_spared (executeTrade_spared hspares hexecute) hfee
  simp only [updatePositionStateAndTimestamp, updatePosition, bind_eq_ok, pure_eq_ok,
    Prod.mk.injEq] at hupdate
  obtain ⟨t, hsend, t', hreceive, _, _, _, _, rfl, _⟩ := hupdate
  have hpays := (World.rebalanced_of_edits h.wellFormed hspared.setToken hspared.others hsupply hsent
    hreceived hsend hreceive).pays h.backed
  exact hpays.of_held rfl rfl

theorem trade_pays (h : w.Pays token)
    (hspares : ∀ info, createTradeInfo module weth w component limit = .ok info →
      ExchangeSpares adapters exchange info w)
    (htrade : trade adapters exchange module weth w sender origin component limit = .ok v) :
    v.Pays token := by
  simp only [trade, validateTradeParameters, bind_eq_ok, require_eq_ok, exists_const,
    pure_eq_ok] at htrade
  obtain ⟨_, _, _, _, _, info, hinfo, w₁, hexecute, ⟨w₂, fee⟩, hfee, ⟨v', amounts⟩, hupdate, rfl⟩ :=
    htrade
  obtain ⟨_, hsupply, hsent, hreceived, _⟩ := createTradeInfo_eq hinfo
  exact executed_pays h hsupply hsent hreceived (hspares info hinfo) hexecute hfee hupdate

theorem createTradeRemainingInfo_eq {info : TradeInfo}
    (h : createTradeRemainingInfo module weth w component limit = .ok info) :
    info.setTotalSupply = w.setToken.totalSupply ∧
      info.preTradeSendTokenBalance = w.balance info.sendToken ∧
      info.preTradeReceiveTokenBalance = w.balance info.receiveToken := by
  simp only [createTradeRemainingInfo, getDefaultTradeInfo, Bool.false_eq_true, if_false, bind_eq_ok,
    pure_eq_ok] at h
  obtain ⟨_, ⟨_, _, _, rfl, rfl⟩, _, _, _, _, rfl⟩ := h
  exact ⟨rfl, rfl, rfl⟩

theorem tradeRemainingWETH_pays (h : w.Pays token)
    (hspares : ∀ info, createTradeRemainingInfo module weth w component limit = .ok info →
      ExchangeSpares adapters exchange info w)
    (htrade : tradeRemainingWETH adapters exchange module weth w sender origin component limit =
      .ok v) : v.Pays token := by
  simp only [tradeRemainingWETH, validateTradeParameters, bind_eq_ok, require_eq_ok, exists_const,
    pure_eq_ok] at htrade
  obtain ⟨_, _, _, _, _, _, _, _, _, _, _, info, hinfo, w₁, hexecute, ⟨w₂, fee⟩, hfee,
    ⟨v', amounts⟩, hupdate, _, _, _, _, _, rfl⟩ := htrade
  obtain ⟨hsupply, hsent, hreceived⟩ := createTradeRemainingInfo_eq hinfo
  exact executed_pays h hsupply hsent hreceived (hspares info hinfo) hexecute hfee hupdate

theorem setEach_held {α : Type} {set : TradeExecutionParams → α → TradeExecutionParams}
    (pairs : List (Address × α)) :
    (setEach w set pairs).setToken = w.setToken ∧ (setEach w set pairs).tokens = w.tokens := by
  induction pairs generalizing w with
  | nil => exact ⟨rfl, rfl⟩
  | cons pair rest ih => exact ih

theorem setExchanges_pays {components : List Address} {exchangeNames : List String}
    (h : w.Pays token)
    (hstep : setExchanges module weth w sender components exchangeNames = .ok v) :
    v.Pays token := by
  simp only [setExchanges, bind_eq_ok] at hstep
  obtain ⟨_, _, _, _, hloop⟩ := hstep
  refine h.of_runs hloop fun u pair t ht => ?_
  split_ifs at ht
  · simp only [bind_eq_ok, pure_eq_ok] at ht
    obtain ⟨_, _, rfl⟩ := ht
    exact ⟨rfl, rfl⟩
  · obtain rfl := pure_eq_ok.mp ht
    exact ⟨rfl, rfl⟩

theorem initializeSet_pays (h : w.Pays token) (hstep : initializeSet module w sender = .ok v) :
    v.Pays token := by
  simp only [initializeSet, bind_eq_ok] at hstep
  obtain ⟨_, _, _, _, positions, _, u, htargets, multiplier, _, hcall⟩ := hstep
  have hu : u.Pays token := h.of_runs htargets fun u a t ht => by
    simp only [bind_eq_ok, pure_eq_ok] at ht
    obtain ⟨_, _, _, _, rfl⟩ := ht
    exact ⟨rfl, rfl⟩
  exact hu.of_callSetToken hcall rfl rfl fun _ => SetToken.initializeModule_sameShares

theorem startRebalance_pays {newComponents : List Address} {newUnits oldUnits : List Nat}
    {positionMultiplier : Nat} (h : w.Pays token)
    (hstep : startRebalance module w sender newComponents newUnits oldUnits positionMultiplier =
      .ok v) : v.Pays token := by
  simp only [startRebalance, bind_eq_ok, pure_eq_ok] at hstep
  obtain ⟨_, _, ⟨_, _⟩, _, u, htargets, rfl⟩ := hstep
  have hu : u.Pays token := h.of_runs htargets fun u a t ht => by
    simp only [bind_eq_ok, pure_eq_ok] at ht
    obtain ⟨_, _, rfl⟩ := ht
    exact ⟨rfl, rfl⟩
  exact hu.of_held rfl rfl

theorem step_pays {a : Action} (h : w.Pays token)
    (hsteady : Steady adapters exchange module weth token w a)
    (hstep : step adapters exchange module weth w a = .ok v) : v.Pays token := by
  cases a with
  | initializeSet sender => exact initializeSet_pays h hstep
  | startRebalance sender newComponents newUnits oldUnits positionMultiplier =>
    exact startRebalance_pays h hstep
  | trade sender origin component limit => exact trade_pays h hsteady hstep
  | tradeRemainingWETH sender origin component minimum =>
    exact tradeRemainingWETH_pays h hsteady hstep
  | raiseAssetTargets sender =>
    simp only [step, raiseAssetTargets, bind_eq_ok, pure_eq_ok] at hstep
    obtain ⟨_, _, _, _, _, _, _, _, _, _, _, _, _, _, _, _, rfl⟩ := hstep
    exact h.of_held rfl rfl
  | setTradeMaximums sender components tradeMaximums =>
    simp only [step, setTradeMaximums, bind_eq_ok, pure_eq_ok] at hstep
    obtain ⟨_, _, _, _, rfl⟩ := hstep
    exact h.of_held (setEach_held _).1 (setEach_held _).2
  | setExchanges sender components exchangeNames => exact setExchanges_pays h hstep
  | setCoolOffPeriods sender components coolOffPeriods =>
    simp only [step, setCoolOffPeriods, bind_eq_ok, pure_eq_ok] at hstep
    obtain ⟨_, _, _, _, rfl⟩ := hstep
    exact h.of_held (setEach_held _).1 (setEach_held _).2
  | setExchangeData sender components exchangeData =>
    simp only [step, setExchangeData, bind_eq_ok, pure_eq_ok] at hstep
    obtain ⟨_, _, _, _, rfl⟩ := hstep
    exact h.of_held (setEach_held _).1 (setEach_held _).2
  | setRaiseTargetPercentage sender raiseTargetPercentage =>
    simp only [step, setRaiseTargetPercentage, bind_eq_ok, pure_eq_ok] at hstep
    obtain ⟨_, _, _, _, rfl⟩ := hstep
    exact h.of_held rfl rfl
  | setTraderStatus sender traders statuses =>
    simp only [step, setTraderStatus, bind_eq_ok, pure_eq_ok] at hstep
    obtain ⟨_, _, _, _, _, _, rfl⟩ := hstep
    exact h.of_held rfl rfl
  | setAnyoneTrade sender status =>
    simp only [step, setAnyoneTrade, bind_eq_ok, pure_eq_ok] at hstep
    obtain ⟨_, _, rfl⟩ := hstep
    exact h.of_held rfl rfl
  | removeModule sender =>
    simp only [step, removeFromSet, bind_eq_ok] at hstep
    obtain ⟨_, _, hcall⟩ := hstep
    exact h.of_callSetToken hcall rfl rfl fun _ => SetToken.finishRemoveModule_sameShares
  | callSetToken call =>
    rw [step] at hstep
    exact h.of_callSetToken hstep rfl rfl hsteady
  | elsewhere tokens timestamp =>
    simp only [step, bind_eq_ok, pure_eq_ok] at hstep
    obtain ⟨_, _, rfl⟩ := hstep
    exact h.of_same ⟨.refl _, rfl⟩ hsteady

end GeneralIndexModule

/-! ### Rebasing components -/

namespace RebasingComponentModule
variable {χ : Type} {issuance : Issuance χ} {module token : Address} {w v : World (WithRebasing χ)}

/-- The actions of other modules are steady. -/
def Steady (token : Address) (w : World (WithRebasing χ)) : Action → Prop
  | .callSetToken call => w.SteadyCall call
  | .elsewhere tokens => w.SteadyTokens token tokens
  | _ => True

theorem sync_pays (h : w.Pays token) (hsync : sync module w = .ok v) : v.Pays token := by
  obtain ⟨honly, hsynced, hunits⟩ := sync_synced h.wellFormed hsync
  refine ⟨honly.wellFormed, ?_⟩
  by_cases hstays : w.setToken.totalSupply = 0 ∨ token ∉ w.rest.rebasing.list
  · exact h.backed.mono (honly.balance token).ge honly.only.totalSupply.le (hunits token hstays).le
  · rw [not_or, not_not] at hstays
    exact (hsynced (Nat.pos_of_ne_zero hstays.1) token hstays.2).backed

theorem addComponents_pays {components : List Address} (h : w.Pays token)
    (hadd : addComponents w components = .ok v) : v.Pays token := by
  simp only [addComponents, map_eq_ok] at hadd
  obtain ⟨rebasing, _, rfl⟩ := hadd
  exact ⟨h.wellFormed, h.backed⟩

theorem attempts_pays {call : Address → World (WithRebasing χ) → Result χ}
    {modules : List Address} (h : w.Pays token) :
    (modules.foldl (fun w other => attempt w (call other)) w).Pays token := by
  obtain ⟨others, hothers⟩ := attempts_eq call modules w
  rw [hothers]
  exact ⟨h.wellFormed, h.backed⟩

theorem step_pays {a : Action} (h : w.Pays token) (hsteady : Steady token w a)
    (hstep : step issuance module w a = .ok v) : v.Pays token := by
  cases a with
  | sync => exact sync_pays h hstep
  | initializeSet sender rebasingComponents =>
    simp only [step, initializeSet, bind_eq_ok] at hstep
    obtain ⟨_, _, _, _, u, hcall, hadd⟩ := hstep
    have hu := h.of_callSetToken hcall rfl rfl fun _ => SetToken.initializeModule_sameShares
    exact addComponents_pays (attempts_pays hu) hadd
  | removeModule sender =>
    simp only [step, removeFromSet, removeModule, bind_eq_ok, pure_eq_ok] at hstep
    obtain ⟨_, _, _, ⟨_, _, u, hsync, rfl⟩, hcall⟩ := hstep
    have hu := sync_pays h hsync
    have hcleared : (withRebasing u ⟨[], u.rest.rebasing.clearFlags⟩).Pays token :=
      hu.of_held rfl rfl
    exact (attempts_pays hcleared).of_callSetToken hcall rfl rfl fun _ =>
      SetToken.finishRemoveModule_sameShares
  | registerToModule sender debtIssuanceModule =>
    simp only [step, registerToModule, bind_eq_ok, map_eq_ok] at hstep
    obtain ⟨_, _, _, _, others, _, rfl⟩ := hstep
    exact ⟨h.wellFormed, h.backed⟩
  | addRebasingComponents sender newRebasingComponents =>
    simp only [step, addRebasingComponents, bind_eq_ok] at hstep
    obtain ⟨_, _, hadd⟩ := hstep
    exact addComponents_pays h hadd
  | removeRebasingComponents sender rebasingComponents =>
    simp only [step, removeRebasingComponents, bind_eq_ok, map_eq_ok] at hstep
    obtain ⟨_, _, rebasing, _, rfl⟩ := hstep
    exact ⟨h.wellFormed, h.backed⟩
  | syncHook caller =>
    simp only [step, syncHook, bind_eq_ok] at hstep
    obtain ⟨_, _, hsync⟩ := hstep
    exact sync_pays h hsync
  | callSetToken call =>
    rw [step] at hstep
    exact h.of_callSetToken hstep rfl rfl hsteady
  | elsewhere tokens =>
    obtain rfl := pure_eq_ok.mp hstep
    exact h.of_same ⟨.refl _, rfl⟩ hsteady

end RebasingComponentModule

/-! ### Airdrops -/

namespace AirdropModule
variable {module token called : Address} {w v : AirdropWorld}

/-- The actions of other modules are steady. -/
def Steady (token : Address) (w : AirdropWorld) : Action → Prop
  | .callSetToken call => w.SteadyCall call
  | .elsewhere tokens => w.SteadyTokens token tokens
  | _ => True

theorem handleAirdropPosition_pays (h : w.Pays token)
    (hposition : handleAirdropPosition module w called = .ok v) : v.Pays token := by
  rcases handleAirdropPosition_eq hposition with rfl | ⟨u, newUnit, hset, _, hpaid, hunit, hedit⟩
  · exact h
  · have hwritten := World.editDefaultPosition_written (hset ▸ h.wellFormed) hedit
    refine ⟨hwritten.wellFormed, ?_⟩
    by_cases htoken : token = called
    · subst htoken
      refine hwritten.backed ?_
      rw [hunit, hset]
      exact Nat.div_mul_le_self _ _
    · have hbalance : u.balance token = w.balance token := by
        rw [World.balance, World.balance, hset, hpaid.others token htoken]
      refine hwritten.backed_of_ne htoken (h.backed.mono hbalance.ge ?_ ?_)
      · rw [hset]
      · rw [World.unit, World.unit, hset]

theorem absorbToken_pays (h : w.Pays token) (habsorb : absorbToken module w called = .ok v) :
    v.Pays token := by
  simp only [absorbToken, bind_eq_ok] at habsorb
  obtain ⟨_, _, hposition⟩ := habsorb
  exact handleAirdropPosition_pays h hposition

theorem absorbs_pays {tokens : List Address} (h : w.Pays token)
    (habsorb : runs (absorbToken module) w tokens = .ok v) : v.Pays token :=
  runs_invariant (fun u : AirdropWorld => u.Pays token) (fun _ _ _ => absorbToken_pays) h habsorb

theorem initializeSet_pays {sender : Address} {airdropSettings : AirdropSettings} (h : w.Pays token)
    (hstep : initializeSet module w sender airdropSettings = .ok v) : v.Pays token := by
  simp only [initializeSet, bind_eq_ok] at hstep
  obtain ⟨_, _, _, _, _, _, _, _, hrest⟩ := hstep
  split_ifs at hrest
  · simp only [bind_eq_ok] at hrest
    obtain ⟨_, _, _, _, hcall⟩ := hrest
    exact h.of_callSetToken hcall rfl rfl fun _ => SetToken.initializeModule_sameShares
  · exact h.of_callSetToken hrest rfl rfl fun _ => SetToken.initializeModule_sameShares

theorem step_pays {a : Action} (h : w.Pays token) (hsteady : Steady token w a)
    (hstep : step module w a = .ok v) : v.Pays token := by
  cases a with
  | initializeSet sender airdropSettings => exact initializeSet_pays h hstep
  | absorb sender called =>
    simp only [step, absorb, bind_eq_ok] at hstep
    obtain ⟨_, _, _, _, habsorb⟩ := hstep
    exact absorbToken_pays h habsorb
  | batchAbsorb sender tokens =>
    simp only [step, batchAbsorb, bind_eq_ok] at hstep
    obtain ⟨_, _, _, _, habsorb⟩ := hstep
    exact absorbs_pays h habsorb
  | addAirdrop sender airdrop =>
    simp only [step, addAirdrop, bind_eq_ok, pure_eq_ok] at hstep
    obtain ⟨_, _, _, _, rfl⟩ := hstep
    exact h.of_held rfl rfl
  | removeAirdrop sender airdrop =>
    simp only [step, removeAirdrop, bind_eq_ok, pure_eq_ok] at hstep
    obtain ⟨_, _, _, _, _, _, rfl⟩ := hstep
    exact h.of_held rfl rfl
  | updateAnyoneAbsorb sender anyoneAbsorb =>
    simp only [step, updateAnyoneAbsorb, bind_eq_ok, pure_eq_ok] at hstep
    obtain ⟨_, _, rfl⟩ := hstep
    exact h.of_held rfl rfl
  | updateFeeRecipient sender newFeeRecipient =>
    simp only [step, updateFeeRecipient, bind_eq_ok, pure_eq_ok] at hstep
    obtain ⟨_, _, _, _, rfl⟩ := hstep
    exact h.of_held rfl rfl
  | updateAirdropFee sender newFee =>
    simp only [step, updateAirdropFee, bind_eq_ok, pure_eq_ok] at hstep
    obtain ⟨_, _, _, _, u, habsorb, rfl⟩ := hstep
    exact (absorbs_pays h habsorb).of_held rfl rfl
  | removeModule sender =>
    simp only [step, removeFromSet, bind_eq_ok] at hstep
    obtain ⟨_, _, hcall⟩ := hstep
    exact h.of_callSetToken hcall rfl rfl fun _ => SetToken.finishRemoveModule_sameShares
  | callSetToken call =>
    rw [step] at hstep
    exact h.of_callSetToken hstep rfl rfl hsteady
  | elsewhere tokens =>
    obtain rfl := pure_eq_ok.mp hstep
    exact h.of_same ⟨.refl _, rfl⟩ hsteady

end AirdropModule

end IndexProtocol
