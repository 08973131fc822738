import IndexProtocol.GeneralIndex.Module
import IndexProtocol.Auction.Bid

/-! What a trade does to the units of its component and of WETH.

The exchange sells the whole amount that is fixed, or delivers it. The protocol's fee is
taken from what was received, and then both units are computed from the balances. As in
an auction all roundings stay on this side of the target, but for a balance that is gone:
a sale of the whole balance makes the unit zero, also where the position was worth more. -/
namespace IndexProtocol
open Evm PreciseUnitMath ModuleBase

namespace GeneralIndexModule
open AuctionRebalanceModuleV1 (Rewritten net_le position_rewritten)

variable {adapters : Address → ExchangeAdapter}
  {exchange : Address → Nat → List UInt8 → IndexWorld → Result IndexWorld}
  {module weth : Address} {w v : IndexWorld} {component : Address}

/-! ### Amounts -/

/-- The unit that the SetToken has of a token. -/
def currentUnit (w : IndexWorld) (token : Address) : Nat :=
  (w.setToken.defaultRealUnit token).toNat

/-- The unit that it should have, for its multiplier. -/
def normalizedTarget (w : IndexWorld) (component : Address) : Nat :=
  (execution w component).targetUnit * w.setToken.positionMultiplier.toNat /
    (rebalance w).positionMultiplier

/-- What the position of a token is worth, rounded down. -/
def currentNotional (w : IndexWorld) (token : Address) : Nat :=
  w.setToken.totalSupply * currentUnit w token / preciseUnit

/-- What its target is worth, rounded up. -/
def targetNotional (w : IndexWorld) (component : Address) : Nat :=
  w.setToken.totalSupply * normalizedTarget w component ⌈/⌉ preciseUnit

/-- The share that the protocol takes of what is received. -/
def protocolFee (module : Address) (w : IndexWorld) : Nat :=
  w.setToken.controller.fees module protocolFeeIndex

/-- The component is to be sold; if not, it is to be bought. -/
def Sells (w : IndexWorld) (component : Address) : Prop :=
  targetNotional w component < currentNotional w component

instance (w : IndexWorld) (component : Address) : Decidable (Sells w component) :=
  inferInstanceAs (Decidable (_ < _))

/-- What is to be sold of the component is all that the SetToken has. -/
def SellsAll (w : IndexWorld) (component : Address) : Prop :=
  Sells w component ∧ min (execution w component).maxSize
    (currentNotional w component - targetNotional w component) = w.balance component

instance (w : IndexWorld) (component : Address) : Decidable (SellsAll w component) :=
  inferInstanceAs (Decidable (_ ∧ _))

/-- The SetToken has what its unit of the token stands for. -/
def Backed (w : IndexWorld) (token : Address) : Prop :=
  currentUnit w token * w.setToken.totalSupply ≤ w.balance token * preciseUnit

theorem getDefaultPositionRealUnit_eq_ok {unit : Nat} (hwf : w.setToken.WellFormed) :
    getDefaultPositionRealUnit w component = .ok unit ↔
      InInt256 (w.setToken.defaultPositionVirtualUnit component * w.setToken.positionMultiplier) ∧
        currentUnit w component = unit :=
  hwf.realUnit_eq_ok

theorem getNormalizedTargetUnit_eq_ok {unit : Nat} (hwf : w.setToken.WellFormed) :
    getNormalizedTargetUnit w component = .ok unit ↔
      (execution w component).targetUnit * w.setToken.positionMultiplier.toNat < uintBound ∧
        0 < (rebalance w).positionMultiplier ∧ normalizedTarget w component = unit :=
  hwf.normalized_eq_ok

theorem getUnitsAndNotionalAmounts_eq {amounts : UnitsAndNotionalAmounts}
    (hwf : w.setToken.WellFormed)
    (h : getUnitsAndNotionalAmounts w component w.setToken.totalSupply = .ok amounts) :
    amounts = ⟨currentUnit w component, normalizedTarget w component, currentNotional w component,
      targetNotional w component⟩ := by
  simp only [getUnitsAndNotionalAmounts, Position.getDefaultTotalNotional, bind_eq_ok, pure_eq_ok,
    preciseMul_eq_ok, preciseMulCeil_eq_ok, getDefaultPositionRealUnit_eq_ok hwf,
    getNormalizedTargetUnit_eq_ok hwf] at h
  obtain ⟨_, ⟨_, rfl⟩, _, ⟨_, _, rfl⟩, _, ⟨_, rfl⟩, _, ⟨_, rfl⟩, rfl⟩ := h
  rfl

/-- The size of a trade, which is never more than the size that is set. -/
theorem calculateTradeSizeAndDirection_eq {isSell : Bool} {size : Nat}
    (hwf : w.setToken.WellFormed)
    (h : calculateTradeSizeAndDirection module w component w.setToken.totalSupply =
      .ok (isSell, size)) :
    isSell = decide (Sells w component) ∧ size ≤ (execution w component).maxSize ∧
      if isSell = true then size = min (execution w component).maxSize
          (currentNotional w component - targetNotional w component)
      else protocolFee module w < preciseUnit ∧
        size ≤ (targetNotional w component - currentNotional w component) * preciseUnit /
          (preciseUnit - protocolFee module w) := by
  simp only [calculateTradeSizeAndDirection, bind_eq_ok, require_eq_ok, exists_const] at h
  obtain ⟨amounts, hamounts, _, h⟩ := h
  obtain rfl := getUnitsAndNotionalAmounts_eq hwf hamounts
  dsimp only at h
  by_cases hsell : targetNotional w component < currentNotional w component
  · rw [if_pos hsell] at h
    simp only [bind_eq_ok, SafeMath.sub_eq_ok, pure_eq_ok, Prod.mk.injEq] at h
    obtain ⟨_, ⟨_, rfl⟩, rfl, rfl⟩ := h
    rw [if_pos rfl]
    exact ⟨(decide_eq_true hsell).symm, Nat.min_le_left _ _, rfl⟩
  · rw [if_neg hsell] at h
    simp only [bind_eq_ok, SafeMath.sub_eq_ok, preciseDiv_eq_ok, pure_eq_ok, Prod.mk.injEq] at h
    obtain ⟨_, ⟨_, rfl⟩, _, ⟨_, rfl⟩, _, ⟨_, hleft, rfl⟩, rfl, rfl⟩ := h
    rw [if_neg Bool.false_ne_true]
    exact ⟨(decide_eq_false hsell).symm, Nat.min_le_left _ _, Nat.sub_pos_iff_lt.mp hleft,
      Nat.min_le_right _ _⟩

/-! ### The exchange -/

/-- The SetToken sold the whole amount that is fixed, or received it. Of the SetToken nothing but
its balances of the two tokens changed. -/
structure Exchanged (info : TradeInfo) (w v : IndexWorld) : Prop where
  setToken : v.setToken = w.setToken
  fixed : if info.isSendTokenFixed = true then
      v.balance info.sendToken + info.sendQuantity = w.balance info.sendToken
    else v.balance info.receiveToken = w.balance info.receiveToken + info.floatingQuantityLimit
  others : ∀ token, token ≠ info.sendToken → token ≠ info.receiveToken →
    v.balance token = w.balance token

/-- The exchange that the adapter has the SetToken call sells the whole amount, or delivers it. -/
def ExactExchange (adapters : Address → ExchangeAdapter)
    (exchange : Address → Nat → List UInt8 → IndexWorld → Result IndexWorld)
    (info : TradeInfo) (w : IndexWorld) : Prop :=
  ∀ u v targetExchange callValue methodData, u.setToken = w.setToken →
    (adapters info.exchangeAdapter).getTradeCalldata info.sendToken info.receiveToken
      w.setToken.self info.isSendTokenFixed info.sendQuantity info.floatingQuantityLimit
      info.exchangeData = .ok (targetExchange, callValue, methodData) →
    exchange targetExchange callValue methodData u = .ok v → Exchanged info u v

/-- The approval changes no balance, and the exchange is called for what the adapter says. -/
theorem executeTrade_called {info : TradeInfo}
    (h : executeTrade adapters exchange module w info = .ok v) :
    ∃ u targetExchange callValue methodData, u.setToken = w.setToken ∧
      (∀ token, u.balance token = w.balance token) ∧
      (adapters info.exchangeAdapter).getTradeCalldata info.sendToken info.receiveToken
        w.setToken.self info.isSendTokenFixed info.sendQuantity info.floatingQuantityLimit
        info.exchangeData = .ok (targetExchange, callValue, methodData) ∧
      exchange targetExchange callValue methodData u = .ok v := by
  simp only [executeTrade, World.invoke, bind_eq_ok, SetToken.validatePrivileged_eq_ok,
    exists_const] at h
  obtain ⟨u, happrove, ⟨targetExchange, callValue, methodData⟩, hcalldata, _, hcall⟩ := h
  obtain ⟨hsame, hkept⟩ := World.invokeApprove_balance happrove
  rw [hsame.setToken] at hcalldata
  refine ⟨u, targetExchange, callValue, methodData, hsame.setToken, fun token => ?_, hcalldata, hcall⟩
  by_cases htoken : token = info.sendToken
  · subst htoken
    rw [World.balance, World.balance, Erc20.balanceOf, Erc20.balanceOf, hsame.setToken, hkept]
  · exact hsame.balance_of_ne htoken

theorem executeTrade_exchanged {info : TradeInfo} (hexact : ExactExchange adapters exchange info w)
    (h : executeTrade adapters exchange module w info = .ok v) : Exchanged info w v := by
  obtain ⟨u, _, _, _, hset, hbalance, hcalldata, hcall⟩ := executeTrade_called h
  have hexchanged := hexact u v _ _ _ hset hcalldata hcall
  refine ⟨hexchanged.setToken.trans hset, ?_, fun token hsend hreceive => ?_⟩
  · rw [← hbalance, ← hbalance]
    exact hexchanged.fixed
  · rw [hexchanged.others token hsend hreceive, hbalance]

/-- The exchange, and the protocol's fee of what was received. -/
theorem accrueProtocolFee_eq {info : TradeInfo} {u : IndexWorld} {fee : Nat}
    (hne : info.sendToken ≠ info.receiveToken)
    (hbefore : info.preTradeReceiveTokenBalance = w.balance info.receiveToken)
    (hexchanged : Exchanged info w u) (h : accrueProtocolFee module u info = .ok (v, fee)) :
    v.setToken = w.setToken ∧
      (if info.isSendTokenFixed = true then
        v.balance info.sendToken + info.sendQuantity = w.balance info.sendToken
      else v.balance info.receiveToken +
          info.floatingQuantityLimit * protocolFee module w / preciseUnit =
        w.balance info.receiveToken + info.floatingQuantityLimit) ∧
      ∀ token, token ≠ info.sendToken → token ≠ info.receiveToken →
        v.balance token = w.balance token := by
  simp only [accrueProtocolFee, getModuleFee, bind_eq_ok, SafeMath.sub_eq_ok, preciseMul_eq_ok,
    pure_eq_ok, Prod.mk.injEq] at h
  obtain ⟨exchanged, ⟨_, hreceived⟩, _, ⟨_, hfee⟩, _, hpay, rfl, rfl⟩ := h
  obtain ⟨hsame, _, hpaid⟩ := World.strictInvokeTransfer_balance hpay
  have hfixed := hexchanged.fixed
  refine ⟨hsame.setToken.trans hexchanged.setToken, ?_, fun token hsend hreceive => ?_⟩
  · cases hdirection : info.isSendTokenFixed with
    | true =>
      rw [hdirection, if_pos rfl] at hfixed
      rw [if_pos rfl, hsame.balance_of_ne hne]
      exact hfixed
    | false =>
      rw [hdirection, if_neg Bool.false_ne_true] at hfixed
      rw [if_neg Bool.false_ne_true, ← hfixed, ← hpaid, ← hfee]
      have hall : exchanged = info.floatingQuantityLimit := by omega
      rw [hall, hexchanged.setToken]
      rfl
  · rw [hsame.balance_of_ne hreceive, hexchanged.others token hsend hreceive]

/-! ### The positions -/

/-- Of the units of the SetToken only that of the token changed; it was written for the balance. -/
structure Edited (w v : IndexWorld) (token : Address) (before : Nat) : Prop where
  only : w.setToken.OnlyPositions v.setToken
  wellFormed : v.setToken.WellFormed
  balance : ∀ other, v.balance other = w.balance other
  units : ∀ other, other ≠ token → currentUnit v other = currentUnit w other
  unit : ∃ newUnit, Rewritten w.setToken.positionMultiplier w.setToken.totalSupply
    (currentNotional w token) before (w.balance token) newUnit (currentUnit v token)

theorem updatePosition_edited {info : TradeInfo} {token : Address} {before : Nat}
    (hwf : w.setToken.WellFormed) (hsupply : info.setTotalSupply = w.setToken.totalSupply)
    (h : updatePosition module w info token before = .ok v) : Edited w v token before := by
  obtain ⟨t, ht, rfl⟩ := World.callSetToken_eq_ok.mp h
  rw [hsupply] at ht
  obtain ⟨honly, hwf', hunits, _, hunit⟩ := position_rewritten hwf ht
  refine ⟨honly, hwf', fun other => ?_, fun other hne => ?_, hunit⟩
  · show (w.tokens other).balanceOf t.self = (w.tokens other).balanceOf w.setToken.self
    rw [honly.self]
  · show (SetToken.scale t.positionMultiplier (t.defaultPositionVirtualUnit other)).toNat = _
    rw [hunits other hne, honly.positionMultiplier]
    rfl

/-- Both positions of a trade were written for their balances, and no other position changed. -/
structure Updated (info : TradeInfo) (before : Address → Nat) (w v : IndexWorld) : Prop where
  totalSupply : v.setToken.totalSupply = w.setToken.totalSupply
  balance : ∀ token, v.balance token = w.balance token
  unit : ∀ token, token = info.sendToken ∨ token = info.receiveToken → ∃ newUnit,
    Rewritten w.setToken.positionMultiplier w.setToken.totalSupply (currentNotional w token)
      (before token) (w.balance token) newUnit (currentUnit v token)
  others : ∀ token, token ≠ info.sendToken → token ≠ info.receiveToken →
    currentUnit v token = currentUnit w token

theorem updatePositionStateAndTimestamp_updated {info : TradeInfo} {before : Address → Nat}
    {amounts : Nat × Nat} (hwf : w.setToken.WellFormed)
    (hsupply : info.setTotalSupply = w.setToken.totalSupply)
    (hsent : info.preTradeSendTokenBalance = before info.sendToken)
    (hreceived : info.preTradeReceiveTokenBalance = before info.receiveToken)
    (hne : info.sendToken ≠ info.receiveToken)
    (h : updatePositionStateAndTimestamp module w info component = .ok (v, amounts)) :
    Updated info before w v := by
  simp only [updatePositionStateAndTimestamp, bind_eq_ok, pure_eq_ok, Prod.mk.injEq] at h
  obtain ⟨u, hsend, t, hreceive, _, _, _, _, rfl, _⟩ := h
  have hedited := updatePosition_edited hwf hsupply hsend
  have hedited' := updatePosition_edited hedited.wellFormed
    (hsupply.trans hedited.only.totalSupply.symm) hreceive
  have hnotional : currentNotional u info.receiveToken = currentNotional w info.receiveToken := by
    rw [currentNotional, currentNotional, hedited.units _ hne.symm, hedited.only.totalSupply]
  refine ⟨hedited'.only.totalSupply.trans hedited.only.totalSupply,
    fun token => (hedited'.balance token).trans (hedited.balance token), fun token htoken => ?_,
    fun token hother hother' => (hedited'.units token hother').trans (hedited.units token hother)⟩
  show ∃ newUnit, Rewritten _ _ _ _ _ newUnit (currentUnit t token)
  cases htoken with
  | inl hsendToken =>
    subst hsendToken
    rw [hedited'.units _ hne, ← hsent]
    exact hedited.unit
  | inr hreceiveToken =>
    subst hreceiveToken
    have hunit := hedited'.unit
    rw [hnotional, hedited.only.positionMultiplier, hedited.only.totalSupply, hedited.balance,
      hreceived] at hunit
    exact hunit

/-! ### The trade -/

section Trade
variable {sender origin : Address} {limit : Nat}

/-- What the info of a trade says of its component. -/
theorem createTradeInfo_eq {info : TradeInfo}
    (h : createTradeInfo module weth w component limit = .ok info) :
    calculateTradeSizeAndDirection module w component w.setToken.totalSupply =
        .ok (info.isSendTokenFixed, info.totalFixedQuantity) ∧
      info.setTotalSupply = w.setToken.totalSupply ∧
      info.preTradeSendTokenBalance = w.balance info.sendToken ∧
      info.preTradeReceiveTokenBalance = w.balance info.receiveToken ∧
      if info.isSendTokenFixed = true then info.sendToken = component ∧
        info.receiveToken = weth ∧ info.sendQuantity = info.totalFixedQuantity
      else info.sendToken = weth ∧ info.receiveToken = component ∧
        info.floatingQuantityLimit = info.totalFixedQuantity := by
  simp only [createTradeInfo, getDefaultTradeInfo, if_true, bind_eq_ok, pure_eq_ok] at h
  obtain ⟨_, ⟨_, _, ⟨isSendTokenFixed, totalFixedQuantity⟩, hsize, rfl⟩, h⟩ := h
  cases isSendTokenFixed with
  | true =>
    simp only [if_true, pure_eq_ok] at h
    subst h
    exact ⟨hsize, rfl, rfl, rfl, rfl, rfl, rfl⟩
  | false =>
    simp only [Bool.false_eq_true, if_false, pure_eq_ok] at h
    subst h
    exact ⟨hsize, rfl, rfl, rfl, rfl, rfl, rfl⟩

/-- One of the tokens is the component, and the other one WETH. -/
theorem createTradeInfo_tokens {info : TradeInfo}
    (h : createTradeInfo module weth w component limit = .ok info) :
    (info.sendToken = component ∧ info.receiveToken = weth) ∨
      (info.sendToken = weth ∧ info.receiveToken = component) := by
  obtain ⟨_, _, _, _, htokens⟩ := createTradeInfo_eq h
  cases hdirection : info.isSendTokenFixed with
  | true =>
    rw [hdirection, if_pos rfl] at htokens
    exact .inl ⟨htokens.1, htokens.2.1⟩
  | false =>
    rw [hdirection, if_neg Bool.false_ne_true] at htokens
    exact .inr ⟨htokens.1, htokens.2.1⟩

/-- What a trade leaves of the balances and of the units. -/
structure Outcome (module weth : Address) (w v : IndexWorld) (component : Address)
    (isSell : Bool) (size : Nat) : Prop where
  totalSupply : v.setToken.totalSupply = w.setToken.totalSupply
  balance : if isSell = true then v.balance component + size = w.balance component
    else v.balance component + size * protocolFee module w / preciseUnit =
      w.balance component + size
  unit : ∀ token, token = component ∨ token = weth → ∃ newUnit,
    Rewritten w.setToken.positionMultiplier w.setToken.totalSupply (currentNotional w token)
      (w.balance token) (v.balance token) newUnit (currentUnit v token)
  others : ∀ token, token ≠ component → token ≠ weth →
    v.balance token = w.balance token ∧ currentUnit v token = currentUnit w token

theorem trade_outcome (hwf : w.setToken.WellFormed)
    (hexact : ∀ info, createTradeInfo module weth w component limit = .ok info →
      ExactExchange adapters exchange info w)
    (h : trade adapters exchange module weth w sender origin component limit = .ok v) :
    ∃ isSell size, calculateTradeSizeAndDirection module w component w.setToken.totalSupply =
      .ok (isSell, size) ∧ Outcome module weth w v component isSell size := by
  simp only [trade, validateTradeParameters, bind_eq_ok, require_eq_ok, exists_const,
    pure_eq_ok] at h
  obtain ⟨_, _, _, _, ⟨hweth, _⟩, info, hinfo, w₁, hexecute, ⟨w₂, fee⟩, hfee, ⟨v', amounts⟩,
    hupdate, rfl⟩ := h
  obtain ⟨hsize, hsupply, hsent, hreceived, htokens⟩ := createTradeInfo_eq hinfo
  have hpair := createTradeInfo_tokens hinfo
  have hne : info.sendToken ≠ info.receiveToken := by
    cases hpair with
    | inl hsale => rwa [hsale.1, hsale.2]
    | inr hpurchase =>
      rw [hpurchase.1, hpurchase.2]
      exact hweth.symm
  have hexchanged := executeTrade_exchanged (hexact info hinfo) hexecute
  obtain ⟨hset, hfixed, hothers⟩ := accrueProtocolFee_eq hne hreceived hexchanged hfee
  have hupdated : Updated info w.balance w₂ v' :=
    updatePositionStateAndTimestamp_updated (hset ▸ hwf) (hset ▸ hsupply) hsent hreceived hne hupdate
  have hunit (token : Address) : currentUnit w₂ token = currentUnit w token := by
    rw [currentUnit, currentUnit, hset]
  refine ⟨_, _, hsize, ⟨hupdated.totalSupply.trans (congrArg SetToken.totalSupply hset), ?_,
    fun token htoken => ?_, fun token hcomponent hother => ?_⟩⟩
  · dsimp only
    rw [hupdated.balance]
    cases hdirection : info.isSendTokenFixed with
    | true =>
      rw [hdirection, if_pos rfl] at htokens hfixed
      obtain ⟨rfl, _, hquantity⟩ := htokens
      rw [if_pos rfl, ← hquantity]
      exact hfixed
    | false =>
      rw [hdirection, if_neg Bool.false_ne_true] at htokens hfixed
      obtain ⟨_, rfl, hquantity⟩ := htokens
      rw [if_neg Bool.false_ne_true, ← hquantity]
      exact hfixed
  · have hedited : token = info.sendToken ∨ token = info.receiveToken := by
      cases hpair with
      | inl hsale => rwa [hsale.1, hsale.2]
      | inr hpurchase =>
        rw [hpurchase.1, hpurchase.2]
        exact htoken.symm
    have hwritten := hupdated.unit token hedited
    rw [currentNotional, hunit, hset, ← hupdated.balance] at hwritten
    exact hwritten
  · have hnot : token ≠ info.sendToken ∧ token ≠ info.receiveToken := by
      cases hpair with
      | inl hsale => exact ⟨hsale.1 ▸ hcomponent, hsale.2 ▸ hother⟩
      | inr hpurchase => exact ⟨hpurchase.1 ▸ hother, hpurchase.2 ▸ hcomponent⟩
    exact ⟨(hupdated.balance token).trans (hothers token hnot.1 hnot.2),
      (hupdated.others token hnot.1 hnot.2).trans (hunit token)⟩

/-- The unit is on this side of the target, for a trade of no more than the size that is set, and
each token that the SetToken had is still there for its unit. -/
structure OnTarget (module weth : Address) (w v : IndexWorld) (component : Address) : Prop where
  sold : Sells w component →
    (normalizedTarget w component : Int) - 1 ≤ currentUnit v component
  bought : ¬Sells w component →
    ((currentUnit v component : Int) - normalizedTarget w component) * w.setToken.totalSupply <
      preciseUnitInt
  traded : ∃ quantity, quantity ≤ (execution w component).maxSize ∧
    if Sells w component then v.balance component + quantity = w.balance component
    else v.balance component + quantity * protocolFee module w / preciseUnit =
      w.balance component + quantity
  backed : ∀ token, token = component ∨ token = weth ∨ Backed w token → Backed v token

namespace Outcome
variable {isSell : Bool} {size : Nat} (h : Outcome module weth w v component isSell size)
include h

theorem backed {token : Address} (htoken : token = component ∨ token = weth ∨ Backed w token) :
    Backed v token := by
  by_cases hedited : token = component ∨ token = weth
  · obtain ⟨newUnit, hunit⟩ := h.unit token hedited
    rw [Backed, h.totalSupply]
    exact hunit.backed
  · obtain ⟨hcomponent, hweth⟩ := not_or.mp hedited
    obtain ⟨hbalance, hunit⟩ := h.others token hcomponent hweth
    rw [Backed, h.totalSupply, hbalance, hunit]
    exact (htoken.resolve_left hcomponent).resolve_left hweth

variable (hwf : w.setToken.WellFormed)
  (hsize : calculateTradeSizeAndDirection module w component w.setToken.totalSupply =
    .ok (isSell, size))
include hwf hsize

theorem traded : ∃ quantity, quantity ≤ (execution w component).maxSize ∧
    if Sells w component then v.balance component + quantity = w.balance component
    else v.balance component + quantity * protocolFee module w / preciseUnit =
      w.balance component + quantity := by
  obtain ⟨hdirection, hmax, _⟩ := calculateTradeSizeAndDirection_eq hwf hsize
  have hbalance := h.balance
  simp only [hdirection, decide_eq_true_eq] at hbalance
  exact ⟨size, hmax, hbalance⟩

/-- A purchase never overshoots. -/
theorem bought (hbuy : ¬Sells w component) :
    ((currentUnit v component : Int) - normalizedTarget w component) * w.setToken.totalSupply <
      preciseUnitInt := by
  obtain ⟨hdirection, _, hterms⟩ := calculateTradeSizeAndDirection_eq hwf hsize
  obtain rfl : isSell = false := hdirection.trans (decide_eq_false hbuy)
  obtain ⟨hfee, hsized⟩ := hterms
  obtain ⟨newUnit, hunit⟩ := h.unit component (.inl rfl)
  have hbalance : v.balance component + size * protocolFee module w / preciseUnit =
      w.balance component + size := h.balance
  have hnet := net_le hfee hsized
  have hlacking : currentNotional w component ≤ targetNotional w component := Nat.not_lt.mp hbuy
  refine hunit.above_lt ?_
  show _ ≤ targetNotional w component
  omega

/-- A sale does not overshoot where something is left. -/
theorem sold (hmultiplier : w.setToken.positionMultiplier ≤ preciseUnitInt)
    (hsell : Sells w component) (hleft : 0 < v.balance component) :
    (normalizedTarget w component : Int) - 1 ≤ currentUnit v component := by
  obtain ⟨hdirection, _, hterms⟩ := calculateTradeSizeAndDirection_eq hwf hsize
  obtain rfl : isSell = true := hdirection.trans (decide_eq_true hsell)
  obtain ⟨newUnit, hunit⟩ := h.unit component (.inl rfl)
  have hbalance : v.balance component + size = w.balance component := h.balance
  have hexcess : size ≤ currentNotional w component - targetNotional w component :=
    (hterms : size = min _ _) ▸ Nat.min_le_right _ _
  have htarget : normalizedTarget w component ≤ newUnit := by
    refine hunit.target_le hleft hbalance ?_
    show targetNotional w component + size ≤ _
    have : targetNotional w component < currentNotional w component := hsell
    omega
  have hsucc := hunit.le_succ hmultiplier
  omega

theorem sellsAll_iff (hsell : Sells w component) :
    SellsAll w component ↔ v.balance component = 0 := by
  obtain ⟨hdirection, _, hterms⟩ := calculateTradeSizeAndDirection_eq hwf hsize
  obtain rfl : isSell = true := hdirection.trans (decide_eq_true hsell)
  have hbalance : v.balance component + size = w.balance component := h.balance
  rw [SellsAll, ← show size = min _ _ from hterms]
  constructor
  · intro hall
    have := hall.2
    omega
  · intro hempty
    exact ⟨hsell, by omega⟩

end Outcome

/-- Where the SetToken has what the unit of the component stands for, all of it is sold for a
target of zero only. -/
theorem SellsAll.target_eq_zero (h : SellsAll w component) (hbacked : Backed w component) :
    normalizedTarget w component = 0 := by
  obtain ⟨hsell, hall⟩ := h
  have hsell' : targetNotional w component < currentNotional w component := hsell
  have hworth : currentNotional w component ≤ w.balance component := by
    apply Nat.div_le_of_le_mul
    rw [Nat.mul_comm, Nat.mul_comm preciseUnit]
    exact hbacked
  have hzero : targetNotional w component = 0 := by
    have := Nat.min_le_right (execution w component).maxSize
      (currentNotional w component - targetNotional w component)
    omega
  have hproduct : w.setToken.totalSupply * normalizedTarget w component = 0 := by
    have hle := Rounding.le_ceil_mul (w.setToken.totalSupply * normalizedTarget w component)
      preciseUnit_pos
    rw [show w.setToken.totalSupply * normalizedTarget w component ⌈/⌉ preciseUnit = 0 from hzero,
      Nat.zero_mul] at hle
    exact Nat.le_zero.mp hle
  cases Nat.mul_eq_zero.mp hproduct with
  | inl hsupply =>
    have hnone : currentNotional w component = 0 := by
      rw [currentNotional, hsupply, Nat.zero_mul, Nat.zero_div]
    omega
  | inr htarget => exact htarget

/-- **When a trade does not overshoot.** Every successful trade leaves the unit of its component on
this side of the target, trades no more than the size that is set and leaves each position
backed, exactly where the target allows a unit of zero in case the trade sells all of the component
that the SetToken has. -/
theorem trade_onTarget_iff {controller : Controller} {factory self manager : Address}
    {components modules : List Address} {units : List Int} {calls : List SetToken.Call}
    {s : SetToken}
    (hcreate : SetTokenCreator.create controller factory self components units modules manager =
      .ok s)
    (hrun : runs SetToken.call s calls = .ok w.setToken)
    (hmultiplier : w.setToken.positionMultiplier ≤ preciseUnitInt)
    (hexact : ∀ info, createTradeInfo module weth w component limit = .ok info →
      ExactExchange adapters exchange info w)
    (h : trade adapters exchange module weth w sender origin component limit = .ok v) :
    OnTarget module weth w v component ↔
      (SellsAll w component → normalizedTarget w component ≤ 1) := by
  have hwf : w.setToken.WellFormed := SetToken.reachable_wellFormed hcreate hrun
  obtain ⟨isSell, size, hsize, houtcome⟩ := trade_outcome hwf hexact h
  constructor
  · intro hon hall
    have hsold := hon.sold hall.1
    obtain ⟨newUnit, hunit⟩ := houtcome.unit component (.inl rfl)
    have hzero := hunit.eq_zero ((houtcome.sellsAll_iff hwf hsize hall.1).mp hall)
    omega
  · intro hallowed
    refine ⟨fun hsell => ?_, houtcome.bought hwf hsize, houtcome.traded hwf hsize,
      fun token => houtcome.backed⟩
    cases Nat.eq_zero_or_pos (v.balance component) with
    | inl hempty =>
      have hone := hallowed ((houtcome.sellsAll_iff hwf hsize hsell).mpr hempty)
      omega
    | inr hleft => exact houtcome.sold hwf hsize hmultiplier hsell hleft

end Trade

/-! One share of ten units is rebalanced to five; the SetToken has the ten units, or only five. -/

section Example
open AuctionRebalanceModuleV1 (exampleCreation exampleCalls exampleTokens)

/-- An adapter that sells component 1 for WETH, of address 2, at the exchange 72. -/
def exampleAdapters (_ : Address) : ExchangeAdapter where
  getSpender := 72
  getTradeCalldata := fun sendToken receiveToken _ isSendTokenFixed sendQuantity _ _ => do
    require (sendToken = 1 ∧ receiveToken = 2 ∧ isSendTokenFixed = true) "Unsupported"
    require (sendQuantity < 256) "Unsupported"
    pure (72, 0, [UInt8.ofNat sendQuantity])

/-- Pays one WETH for one of the component. -/
def exampleExchange (_ : Address) (_ : Nat) (methodData : List UInt8) (w : IndexWorld) :
    Result IndexWorld := do
  let quantity := (methodData.headD 0).toNat
  let w ← w.callToken 1 (·.transferFrom 72 w.setToken.self 72 quantity)
  w.callToken 2 (·.transfer 72 w.setToken.self quantity)

theorem exampleExchange_exact (info : TradeInfo) (hself : w.setToken.self ≠ 72) :
    ExactExchange exampleAdapters exampleExchange info w := by
  intro u v targetExchange callValue methodData hset hcalldata hcall
  simp only [exampleAdapters, bind_eq_ok, require_eq_ok, exists_const, pure_eq_ok,
    Prod.mk.injEq] at hcalldata
  obtain ⟨⟨hsend, hreceive, hfixed⟩, hsmall, rfl, rfl, rfl⟩ := hcalldata
  simp only [exampleExchange, List.headD_cons, bind_eq_ok] at hcall
  obtain ⟨u', hsale, hpay⟩ := hcall
  obtain ⟨hsame, ht⟩ := World.callToken_sameBut hsale
  obtain ⟨hsame', _⟩ := World.callToken_sameBut hpay
  have hmoved := (Erc20.transferFrom_moved ht).1.at_sender (hset ▸ hself)
  refine ⟨hsame'.setToken.trans hsame.setToken, ?_, fun token hother hother' => ?_⟩
  · rw [if_pos hfixed, hsend, hsame'.balance_of_ne (by decide), World.balance, World.balance,
      hsame.setToken, ← hmoved, UInt8.toNat_ofNat', Nat.mod_eq_of_lt hsmall]
  · rw [hsame'.balance_of_ne (hreceive ▸ hother'), hsame.balance_of_ne (hsend ▸ hother)]

/-- Anybody may trade component 1, by at most a hundred. -/
def exampleTrade (target balance : Nat) : Result IndexWorld := do
  let s ← exampleCreation 10
  let s ← runs SetToken.call s exampleCalls
  pure ⟨s, exampleTokens balance,
    { timestamp := 1000
      executionInfo := Function.update (fun _ => .empty) 1 ⟨target, 100, 0, 0, "exchange", []⟩
      permissionInfo := ⟨true, [], fun _ => false⟩
      rebalanceInfo := ⟨10 ^ 18, 0, [1]⟩ }⟩

theorem trade_onTarget_iff_example : ∃ w v, exampleTrade 5 10 = .ok w ∧
    trade exampleAdapters exampleExchange 50 2 w 30 30 1 5 = .ok v ∧ currentUnit v 1 = 5 ∧
    OnTarget 50 2 w v 1 := by
  have h : (do
      let w ← exampleTrade 5 10
      let v ← trade exampleAdapters exampleExchange 50 2 w 30 30 1 5
      require (w.setToken.self = 100 ∧ w.setToken.positionMultiplier ≤ preciseUnitInt ∧
        ¬SellsAll w 1 ∧ currentUnit v 1 = 5) "") = .ok () := by
    decide +kernel
  simp only [bind_eq_ok, require_eq_ok] at h
  obtain ⟨w, hw, v, hv, hself, hmultiplier, hleft, hunit⟩ := h
  have hdeployed := hw
  simp only [exampleTrade, exampleCreation, bind_eq_ok, pure_eq_ok] at hdeployed
  obtain ⟨_, hcreate, s, hrun, rfl⟩ := hdeployed
  exact ⟨_, v, hw, hv, hunit, (trade_onTarget_iff hcreate hrun hmultiplier
    (fun info _ => exampleExchange_exact info (by rw [hself]; decide)) hv).mpr
    fun hall => absurd hall hleft⟩

/-- The whole balance is sold, within the distance to the target; the unit misses the target by
all of it. -/
theorem trade_overshoots : ∃ w v, exampleTrade 5 5 = .ok w ∧
    (∀ info, createTradeInfo 50 2 w 1 5 = .ok info →
      ExactExchange exampleAdapters exampleExchange info w) ∧
    trade exampleAdapters exampleExchange 50 2 w 30 30 1 5 = .ok v ∧ normalizedTarget w 1 = 5 ∧
    currentUnit v 1 = 0 ∧ ¬OnTarget 50 2 w v 1 := by
  have h : (do
      let w ← exampleTrade 5 5
      let v ← trade exampleAdapters exampleExchange 50 2 w 30 30 1 5
      require (w.setToken.self = 100 ∧ Sells w 1 ∧ normalizedTarget w 1 = 5 ∧
        currentUnit v 1 = 0) "") = .ok () := by
    decide +kernel
  simp only [bind_eq_ok, require_eq_ok] at h
  obtain ⟨w, hw, v, hv, hself, hsell, htarget, hunit⟩ := h
  refine ⟨w, v, hw, fun info _ => exampleExchange_exact info (by rw [hself]; decide), hv, htarget,
    hunit, fun hon => ?_⟩
  have hsold := hon.sold hsell
  omega

end Example

end GeneralIndexModule

end IndexProtocol
