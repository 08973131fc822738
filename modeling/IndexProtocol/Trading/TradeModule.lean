import IndexProtocol.ModuleBase
import IndexProtocol.Trading.Backing

/-! The TradeModule: the manager trades one component of a SetToken for another token.

`module` is this module's address, `adapters` are the exchange adapters by address, and
`exchange` is what a call of an exchange by the SetToken does. No call re-enters the
module. -/
namespace IndexProtocol
open Evm PreciseUnitMath ModuleBase

namespace Position

/-- Whether the default position has as many units. -/
def hasSufficientDefaultUnits (s : SetToken) (component : Address) (unit : Nat) : Result Bool := do
  let positionUnit ← s.getDefaultPositionRealUnit component
  let unit ← SafeCast.toInt256 unit
  pure (decide (unit ≤ positionUnit))

end Position

namespace TradeModule

structure TradeInfo where
  exchangeAdapter : Address
  sendToken : Address
  receiveToken : Address
  setTotalSupply : Nat
  totalSendQuantity : Nat
  totalMinReceiveQuantity : Nat
  preTradeSendTokenBalance : Nat
  preTradeReceiveTokenBalance : Nat

structure ExchangeAdapter where
  getSpender : Address
  /-- The exchange to call, with the value and the data of the call. -/
  getTradeCalldata : (sendToken receiveToken setToken : Address) →
    (sendQuantity minReceiveQuantity : Nat) → (data : List UInt8) →
    Result (Address × Nat × List UInt8)

def protocolFeeIndex : Nat := 0

section Module
variable {χ : Type} (adapters : Address → ExchangeAdapter)
  (exchange : Address → Nat → List UInt8 → World χ → Result (World χ))
  (module : Address) (w : World χ)

/-- The module's `initialize`. -/
def initializeSet (sender : Address) : Result (World χ) := do
  validateOnlyValidAndPendingSet w.setToken module
  validateOnlySetManager w.setToken sender
  w.callSetToken (·.initializeModule module)

def createTradeInfo (exchangeName : String) (sendToken receiveToken : Address)
    (sendQuantity minReceiveQuantity : Nat) : Result TradeInfo := do
  let exchangeAdapter ← getAndValidateAdapter w.setToken module exchangeName
  let setTotalSupply := w.setToken.totalSupply
  let totalSendQuantity ← Position.getDefaultTotalNotional setTotalSupply sendQuantity
  let totalMinReceiveQuantity ← Position.getDefaultTotalNotional setTotalSupply minReceiveQuantity
  pure
    { exchangeAdapter := exchangeAdapter
      sendToken := sendToken
      receiveToken := receiveToken
      setTotalSupply := setTotalSupply
      totalSendQuantity := totalSendQuantity
      totalMinReceiveQuantity := totalMinReceiveQuantity
      preTradeSendTokenBalance := w.balance sendToken
      preTradeReceiveTokenBalance := w.balance receiveToken }

def validatePreTradeData (tradeInfo : TradeInfo) (sendQuantity : Nat) : Result Unit := do
  require (0 < tradeInfo.totalSendQuantity) "Token to sell must be nonzero"
  let sufficient ←
    Position.hasSufficientDefaultUnits w.setToken tradeInfo.sendToken sendQuantity
  require (sufficient = true) "Unit cant be greater than existing"

def executeTrade (tradeInfo : TradeInfo) (data : List UInt8) : Result (World χ) := do
  let adapter := adapters tradeInfo.exchangeAdapter
  let w ← Invoke.invokeApprove w module tradeInfo.sendToken adapter.getSpender
    tradeInfo.totalSendQuantity
  let (targetExchange, callValue, methodData) ← adapter.getTradeCalldata tradeInfo.sendToken
    tradeInfo.receiveToken w.setToken.self tradeInfo.totalSendQuantity
    tradeInfo.totalMinReceiveQuantity data
  w.invoke module (exchange targetExchange callValue methodData)

/-- Returns what was received. -/
def validatePostTrade (tradeInfo : TradeInfo) : Result Nat := do
  let exchangedQuantity ←
    SafeMath.sub (w.balance tradeInfo.receiveToken) tradeInfo.preTradeReceiveTokenBalance
  require (tradeInfo.totalMinReceiveQuantity ≤ exchangedQuantity) "Slippage greater than allowed"
  pure exchangedQuantity

/-- Returns the fee as well. -/
def accrueProtocolFee (tradeInfo : TradeInfo) (exchangedQuantity : Nat) :
    Result (World χ × Nat) := do
  let protocolFeeTotal ← getModuleFee w.setToken module protocolFeeIndex exchangedQuantity
  let w ← Invoke.strictInvokeTransfer w module tradeInfo.receiveToken
    w.setToken.controller.feeRecipient protocolFeeTotal
  pure (w, protocolFeeTotal)

/-- The unit of a token of the trade, from its balance before and now. -/
def updatePosition (tradeInfo : TradeInfo) (token : Address) (preTradeBalance : Nat) :
    Result (World χ) :=
  w.callSetToken fun s => Position.calculateAndEditDefaultPosition s module token (w.balance token)
    tradeInfo.setTotalSupply preTradeBalance

/-- Returns the net amounts sent and received as well. -/
def updateSetTokenPositions (tradeInfo : TradeInfo) : Result (World χ × Nat × Nat) := do
  let w ← updatePosition module w tradeInfo tradeInfo.sendToken tradeInfo.preTradeSendTokenBalance
  let w ← updatePosition module w tradeInfo tradeInfo.receiveToken
    tradeInfo.preTradeReceiveTokenBalance
  let netSendAmount ←
    SafeMath.sub tradeInfo.preTradeSendTokenBalance (w.balance tradeInfo.sendToken)
  let netReceiveAmount ←
    SafeMath.sub (w.balance tradeInfo.receiveToken) tradeInfo.preTradeReceiveTokenBalance
  pure (w, netSendAmount, netReceiveAmount)

def trade (sender : Address) (exchangeName : String) (sendToken : Address) (sendQuantity : Nat)
    (receiveToken : Address) (minReceiveQuantity : Nat) (data : List UInt8) :
    Result (World χ) := do
  validateOnlyManagerAndValidSet w.setToken module sender
  let tradeInfo ← createTradeInfo module w exchangeName sendToken receiveToken sendQuantity
    minReceiveQuantity
  validatePreTradeData w tradeInfo sendQuantity
  let w ← executeTrade adapters exchange module w tradeInfo data
  let exchangedQuantity ← validatePostTrade w tradeInfo
  let (w, _) ← accrueProtocolFee module w tradeInfo exchangedQuantity
  let (w, _, _) ← updateSetTokenPositions module w tradeInfo
  pure w

end Module

/-! ### What an exchange owes -/

section Trade
variable {χ : Type} {adapters : Address → ExchangeAdapter}
  {exchange : Address → Nat → List UInt8 → World χ → Result (World χ)}
  {module sender sendToken receiveToken : Address} {exchangeName : String}
  {sendQuantity minReceiveQuantity : Nat} {data : List UInt8} {w v : World χ}

/-- The call that the adapter of the name has the SetToken make takes no more than the amount that
is approved, and only of the token that is sold. -/
def ExchangeTakes (adapters : Address → ExchangeAdapter)
    (exchange : Address → Nat → List UInt8 → World χ → Result (World χ)) (module : Address)
    (exchangeName : String) (w : World χ) (sendToken : Address) : Prop :=
  ∀ u v receiveToken quantity minimum data targetExchange callValue methodData,
    u.setToken = w.setToken →
    (adapters (w.setToken.controller.integrationAdapter module exchangeName)).getTradeCalldata
      sendToken receiveToken w.setToken.self quantity minimum data =
        .ok (targetExchange, callValue, methodData) →
    exchange targetExchange callValue methodData u = .ok v → u.Takes v sendToken quantity

theorem createTradeInfo_eq {info : TradeInfo}
    (h : createTradeInfo module w exchangeName sendToken receiveToken sendQuantity
      minReceiveQuantity = .ok info) :
    info =
      { exchangeAdapter := w.setToken.controller.integrationAdapter module exchangeName
        sendToken := sendToken
        receiveToken := receiveToken
        setTotalSupply := w.setToken.totalSupply
        totalSendQuantity := w.setToken.totalSupply * sendQuantity / preciseUnit
        totalMinReceiveQuantity := w.setToken.totalSupply * minReceiveQuantity / preciseUnit
        preTradeSendTokenBalance := w.balance sendToken
        preTradeReceiveTokenBalance := w.balance receiveToken } := by
  simp only [createTradeInfo, getAndValidateAdapter, Position.getDefaultTotalNotional, bind_eq_ok,
    require_eq_ok, exists_const, pure_eq_ok, preciseMul_eq_ok] at h
  obtain ⟨_, ⟨_, rfl⟩, _, ⟨_, rfl⟩, _, ⟨_, rfl⟩, rfl⟩ := h
  rfl

theorem hasSufficientDefaultUnits_le {token : Address} {quantity : Nat}
    (h : Position.hasSufficientDefaultUnits w.setToken token quantity = .ok true) :
    quantity ≤ w.unit token := by
  simp only [Position.hasSufficientDefaultUnits, bind_eq_ok, SetToken.getDefaultPositionRealUnit_eq_ok,
    SafeCast.toInt256_eq_ok, pure_eq_ok, decide_eq_true_eq] at h
  obtain ⟨_, ⟨_, rfl⟩, _, ⟨_, rfl⟩, hle⟩ := h
  rw [World.unit]
  omega

section Steps
variable {info : TradeInfo}

theorem executeTrade_takes
    (hadapter : info.exchangeAdapter = w.setToken.controller.integrationAdapter module exchangeName)
    (htakes : ExchangeTakes adapters exchange module exchangeName w info.sendToken)
    (h : executeTrade adapters exchange module w info data = .ok v) :
    w.Takes v info.sendToken info.totalSendQuantity := by
  simp only [executeTrade, World.invoke, bind_eq_ok, SetToken.validatePrivileged_eq_ok,
    exists_const, hadapter] at h
  obtain ⟨u, happrove, ⟨targetExchange, callValue, methodData⟩, hcalldata, _, hcall⟩ := h
  have hset : u.setToken = w.setToken := (World.invokeApprove_balance happrove).1.setToken
  rw [hset] at hcalldata
  have htaken := (World.invokeApprove_takes happrove).trans
    (htakes u v _ _ _ _ targetExchange callValue methodData hset hcalldata hcall)
  rwa [Nat.zero_add] at htaken

/-- What was received, and the fee that left for it. -/
theorem accrueProtocolFee_eq {exchanged fee : Nat} {u : World χ}
    (hreceived : validatePostTrade w info = .ok exchanged)
    (h : accrueProtocolFee module w info exchanged = .ok (u, fee)) :
    info.totalMinReceiveQuantity ≤ exchanged ∧ w.SameBut u info.receiveToken ∧
      u.balance info.receiveToken +
          exchanged * w.setToken.controller.fees module protocolFeeIndex / preciseUnit =
        info.preTradeReceiveTokenBalance + exchanged := by
  simp only [validatePostTrade, bind_eq_ok, SafeMath.sub_eq_ok, require_eq_ok, exists_const,
    pure_eq_ok] at hreceived
  obtain ⟨_, ⟨hle, rfl⟩, hminimum, rfl⟩ := hreceived
  simp only [accrueProtocolFee, getModuleFee, bind_eq_ok, preciseMul_eq_ok, pure_eq_ok,
    Prod.mk.injEq] at h
  obtain ⟨_, ⟨_, rfl⟩, _, hpay, rfl, _⟩ := h
  obtain ⟨hsame, _, hpaid⟩ := World.strictInvokeTransfer_balance hpay
  exact ⟨hminimum, hsame, by omega⟩

/-- Both positions are written for the balances; the amounts that are reported were not negative. -/
theorem updateSetTokenPositions_eq {amounts : Nat × Nat} {u : World χ}
    (hwf : w.setToken.WellFormed) (hset : u.setToken = w.setToken)
    (hothers : ∀ token, token ≠ info.sendToken → token ≠ info.receiveToken →
      w.balance token ≤ u.balance token)
    (hsupply : info.setTotalSupply = w.setToken.totalSupply)
    (hsent : info.preTradeSendTokenBalance = w.balance info.sendToken)
    (hreceived : info.preTradeReceiveTokenBalance = w.balance info.receiveToken)
    (h : updateSetTokenPositions module u info = .ok (v, amounts)) :
    ∃ t, w.Rebalanced v info.sendToken info.receiveToken u t ∧
      u.balance info.sendToken ≤ w.balance info.sendToken ∧
      w.balance info.receiveToken ≤ u.balance info.receiveToken := by
  simp only [updateSetTokenPositions, updatePosition, bind_eq_ok, SafeMath.sub_eq_ok, pure_eq_ok,
    Prod.mk.injEq] at h
  obtain ⟨t, hsend, t', hreceive, _, ⟨hle, _⟩, _, ⟨hle', _⟩, rfl, _⟩ := h
  have hrebalanced := World.rebalanced_of_edits hwf hset hothers hsupply hsent hreceived hsend hreceive
  rw [hrebalanced.second.balance, hrebalanced.first.balance] at hle hle'
  exact ⟨t, hrebalanced, hsent ▸ hle, hreceived ▸ hle'⟩

end Steps

/-- A trade: `u` is what the exchange and the fee left, `t` what the first edit left. -/
structure Traded (module : Address) (w v : World χ) (sendToken receiveToken : Address)
    (sendQuantity minReceiveQuantity exchanged : Nat) (u t : World χ) : Prop where
  sufficient : sendQuantity ≤ w.unit sendToken
  minimum : w.setToken.totalSupply * minReceiveQuantity / preciseUnit ≤ exchanged
  taken : sendToken ≠ receiveToken → w.balance sendToken ≤
    u.balance sendToken + w.setToken.totalSupply * sendQuantity / preciseUnit
  received : u.balance receiveToken + exchanged * w.setToken.controller.fees module
    protocolFeeIndex / preciseUnit = w.balance receiveToken + exchanged
  rebalanced : w.Rebalanced v sendToken receiveToken u t
  sent_le : u.balance sendToken ≤ w.balance sendToken
  le_received : w.balance receiveToken ≤ u.balance receiveToken

theorem trade_traded (hwf : w.setToken.WellFormed)
    (htakes : ExchangeTakes adapters exchange module exchangeName w sendToken)
    (h : trade adapters exchange module w sender exchangeName sendToken sendQuantity receiveToken
      minReceiveQuantity data = .ok v) :
    ∃ exchanged u t, Traded module w v sendToken receiveToken sendQuantity minReceiveQuantity
      exchanged u t := by
  simp only [trade, validatePreTradeData, bind_eq_ok, require_eq_ok, exists_const, pure_eq_ok] at h
  obtain ⟨_, _, info, hinfo, ⟨_, _, hsufficient, rfl⟩, x, hexecute, exchanged, hpost, ⟨u, fee⟩, hfee,
    ⟨v', amounts⟩, hupdate, rfl⟩ := h
  obtain rfl := createTradeInfo_eq hinfo
  have hexecuted := executeTrade_takes rfl htakes hexecute
  obtain ⟨hminimum, hsame, hreceived⟩ := accrueProtocolFee_eq hpost hfee
  have hset : u.setToken = w.setToken := hsame.setToken.trans hexecuted.setToken
  have hothers (token : Address) (hother : token ≠ sendToken) (hother' : token ≠ receiveToken) :
      w.balance token ≤ u.balance token := by
    rw [hsame.balance_of_ne hother']
    exact hexecuted.others token hother
  obtain ⟨t, hrebalanced, hsent, hgot⟩ :=
    updateSetTokenPositions_eq hwf hset hothers rfl rfl rfl hupdate
  rw [hexecuted.setToken] at hreceived
  refine ⟨exchanged, u, t, hasSufficientDefaultUnits_le hsufficient, hminimum, fun hne => ?_,
    hreceived, hrebalanced, hsent, hgot⟩
  rw [hsame.balance_of_ne hne]
  exact hexecuted.taken

/-- What a trade comes to: of the token that is sold no more was given than the manager said, what
was received is no less than the manager asked, and but for the protocol's fee of it the shares
got all. -/
structure Settled (module : Address) (w v : World χ) (sendToken receiveToken : Address)
    (sendQuantity minReceiveQuantity sold received fee : Nat) : Prop where
  sufficient : sendQuantity ≤ w.unit sendToken
  sold_le : sold ≤ w.setToken.totalSupply * sendQuantity / preciseUnit
  le_received : w.setToken.totalSupply * minReceiveQuantity / preciseUnit ≤ received
  fee_eq : fee = received * w.setToken.controller.fees module protocolFeeIndex / preciseUnit
  fee_le : fee ≤ received
  converted : w.Converted v sendToken receiveToken sold (received - fee)

section Example
open AuctionRebalanceModuleV1 (exampleCreation exampleCalls exampleTokens)

/-- An adapter that sells token 1 for token 2, at the exchange 72. -/
def exampleAdapters (_ : Address) : ExchangeAdapter where
  getSpender := 72
  getTradeCalldata := fun sendToken receiveToken _ sendQuantity _ _ => do
    require (sendToken = 1 ∧ receiveToken = 2) "Unsupported"
    require (sendQuantity < 256) "Unsupported"
    pure (72, 0, [UInt8.ofNat sendQuantity])

/-- Takes what it is told to of token 1, and pays two hundred of token 2 for each. -/
def exampleExchange (_ : Address) (_ : Nat) (methodData : List UInt8) (w : World χ) :
    Result (World χ) := do
  let quantity := (methodData.headD 0).toNat
  let w ← w.callToken 1 (·.transferFrom 72 w.setToken.self 72 quantity)
  w.callToken 2 (·.transfer 72 w.setToken.self (200 * quantity))

theorem exampleExchange_takes (hself : w.setToken.self ≠ 72) :
    ExchangeTakes exampleAdapters exampleExchange module exchangeName w sendToken := by
  intro u v receiveToken quantity minimum data targetExchange callValue methodData hset hcalldata
    hcall
  simp only [exampleAdapters, bind_eq_ok, require_eq_ok, exists_const, pure_eq_ok,
    Prod.mk.injEq] at hcalldata
  obtain ⟨⟨rfl, rfl⟩, hsmall, rfl, rfl, rfl⟩ := hcalldata
  simp only [exampleExchange, List.headD_cons, bind_eq_ok] at hcall
  obtain ⟨u', hsale, hpay⟩ := hcall
  obtain ⟨hsame, ht⟩ := World.callToken_sameBut hsale
  obtain ⟨hsame', ht'⟩ := World.callToken_sameBut hpay
  have hmoved := (Erc20.transferFrom_moved ht).1.at_sender (hset ▸ hself)
  have hpaid := (Erc20.transferInternal_moved ht').1 u.setToken.self
  rw [UInt8.toNat_ofNat', Nat.mod_eq_of_lt hsmall] at hmoved
  refine ⟨hsame'.setToken.trans hsame.setToken, ?_, fun token hother => ?_⟩
  · rw [hsame'.balance_of_ne (by decide), World.balance, World.balance, hsame.setToken]
    exact hmoved.ge
  · by_cases htwo : token = 2
    · subst htwo
      rw [← hsame.balance_of_ne hother]
      simp only [World.balance, hsame'.setToken, hsame.setToken] at hpaid ⊢
      rw [if_neg (hset ▸ hself)] at hpaid
      omega
    · rw [hsame'.balance_of_ne htwo, hsame.balance_of_ne hother]

def exampleWorld (balance : Nat) : Result (World Unit) := do
  let created ← exampleCreation 10
  let s ← runs SetToken.call created exampleCalls
  pure ⟨s, exampleTokens balance, ()⟩

end Example

end Trade

end TradeModule

end IndexProtocol
