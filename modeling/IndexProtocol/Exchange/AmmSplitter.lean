import IndexProtocol.Erc20
import IndexProtocol.PreciseUnitMath

/-! The splitter of trades between two exchanges.

Uniswap V2 and Sushiswap are exchanges of the same kind, with routers and pools of their own. The
splitter divides a trade between them by the sizes of their pools, measured as the balances of
one token on the path, and trades each part through its router. -/
namespace IndexProtocol
open Evm PreciseUnitMath

/-- The tokens and the pools of an exchange, which a call of its router changes. -/
structure AmmMarket (κ : Type) where
  tokens : Address → Erc20
  pools : κ

/-- An exchange in the manner of Uniswap V2: its factory, and the router's quotes and swaps. A swap
is called by an account with an amount, a bound, a path, a recipient and a deadline. -/
structure AmmExchange (κ : Type) where
  router : Address
  getPair : κ → Address → Address → Address
  getAmountsOut : κ → Nat → List Address → Result (List Nat)
  getAmountsIn : κ → Nat → List Address → Result (List Nat)
  swapExactTokensForTokens : AmmMarket κ → Address → Nat → Nat → List Address → Address → Nat →
    Result (AmmMarket κ × List Nat)
  swapTokensForExactTokens : AmmMarket κ → Address → Nat → Nat → List Address → Address → Nat →
    Result (AmmMarket κ × List Nat)

/-- What an account outside the pools sees of a swap: the caller pays the first amount of the path
and the recipient gets the last. -/
def Carried (IsPool : Address → Prop) (tokens tokens' : Address → Erc20)
    (caller recipient : Address) (path : List Address) (amounts : List Nat) : Prop :=
  ∀ account, ¬IsPool account → ∀ token,
    (tokens' token).balanceOf account +
        (if account = caller ∧ path.head? = some token then amounts.headD 0 else 0) =
      (tokens token).balanceOf account +
        if account = recipient ∧ path.getLast? = some token then amounts.getLastD 0 else 0

/-- An exchange that executes what it quotes. A quote starts or ends with the size asked for. -/
structure AmmExchange.Sound {κ : Type} (X : AmmExchange κ) (IsPool : Address → Prop) : Prop where
  amountsOut : ∀ {pools size path amounts}, X.getAmountsOut pools size path = .ok amounts →
    path.IsChain (· ≠ ·) ∧ amounts.length = path.length ∧ amounts.headD 0 = size
  amountsIn : ∀ {pools size path amounts}, X.getAmountsIn pools size path = .ok amounts →
    path.IsChain (· ≠ ·) ∧ amounts.length = path.length ∧ amounts.getLastD 0 = size
  swapExactTokens : ∀ {m m' : AmmMarket κ} {caller size amountOutMin path recipient deadline amounts},
    X.swapExactTokensForTokens m caller size amountOutMin path recipient deadline =
        .ok (m', amounts) →
      X.getAmountsOut m.pools size path = .ok amounts ∧
        Carried IsPool m.tokens m'.tokens caller recipient path amounts
  swapForExactTokens :
    ∀ {m m' : AmmMarket κ} {caller size amountInMax path recipient deadline amounts},
    X.swapTokensForExactTokens m caller size amountInMax path recipient deadline =
        .ok (m', amounts) →
      X.getAmountsIn m.pools size path = .ok amounts ∧
        Carried IsPool m.tokens m'.tokens caller recipient path amounts

inductive Venue
  | uni
  | sushi
  deriving DecidableEq

def Venue.other : Venue → Venue
  | uni => sushi
  | sushi => uni

/-- The tokens, and the pools of both exchanges. -/
structure SplitterState (κ : Type) where
  tokens : Address → Erc20
  pools : Venue → κ

namespace SplitterState
variable {κ : Type} (w : SplitterState κ)

def market (venue : Venue) : AmmMarket κ := ⟨w.tokens, w.pools venue⟩

/-- What a call of one exchange leaves. -/
def withMarket (venue : Venue) (m : AmmMarket κ) : SplitterState κ :=
  ⟨m.tokens, Function.update w.pools venue m.pools⟩

def balance (token account : Address) : Nat := (w.tokens token).balanceOf account

def callToken (token : Address) (call : Erc20 → Result Erc20) : Result (SplitterState κ) := do
  let t ← call (w.tokens token)
  pure { w with tokens := Function.update w.tokens token t }

end SplitterState

structure AmmSplitter (κ : Type) where
  self : Address
  exchange : Venue → AmmExchange κ

namespace AmmSplitter

/-- The exchanges execute what they quote, and the splitter is none of their pools. -/
structure Sound {κ : Type} (S : AmmSplitter κ) (IsPool : Venue → Address → Prop) : Prop where
  exchange : ∀ venue, (S.exchange venue).Sound (IsPool venue)
  self : ∀ venue, ¬IsPool venue S.self

/-- Trade sizes, of inputs or of outputs. -/
structure TradeInfo where
  uniSize : Nat
  sushiSize : Nat
  deriving DecidableEq

def TradeInfo.size (info : TradeInfo) : Venue → Nat
  | .uni => info.uniSize
  | .sushi => info.sushiSize

def checkPath (path : List Address) : Result Unit :=
  require (path.length = 2 ∨ path.length = 3) "AMMSplitter: incorrect path length"

def calculateTwoHopRatio (uniLiqPoolA uniLiqPoolB sushiLiqPoolA sushiLiqPoolB : Nat) :
    Result Nat := do
  let sushiLiq ← SafeMath.add sushiLiqPoolA sushiLiqPoolB
  let uniLiq ← SafeMath.add uniLiqPoolA uniLiqPoolB
  let a ← preciseDiv sushiLiq uniLiq
  let b ← preciseDiv uniLiqPoolA sushiLiqPoolA
  let c ← preciseDiv uniLiqPoolB sushiLiqPoolB
  let ab ← preciseMul a b
  preciseMul ab c

/-- The part of a trade along one hop that is for Uniswap. -/
def oneHopPercentage (uniLiqPool sushiLiqPool : Nat) : Result Nat := do
  let liqPool ← SafeMath.add uniLiqPool sushiLiqPool
  preciseDiv uniLiqPool liqPool

/-- The part of a trade along two hops that is for Uniswap. -/
def twoHopPercentage (uniLiqPoolA uniLiqPoolB sushiLiqPoolA sushiLiqPoolB : Nat) : Result Nat := do
  let ratio ← calculateTwoHopRatio uniLiqPoolA uniLiqPoolB sushiLiqPoolA sushiLiqPoolB
  let whole ← SafeMath.add ratio preciseUnit
  preciseDiv ratio whole

def TradeInfo.ofPercentage (size uniPercentage : Nat) : Result TradeInfo := do
  let uniSize ← preciseMul size uniPercentage
  let sushiSize ← SafeMath.sub size uniSize
  pure ⟨uniSize, sushiSize⟩

section Calls
variable {κ : Type} (S : AmmSplitter κ) (w : SplitterState κ)

def getTokenBalanceInPair (venue : Venue) (pairedToken balanceToken : Address) : Nat :=
  w.balance balanceToken ((S.exchange venue).getPair (w.pools venue) pairedToken balanceToken)

def getTradeSizes (path : List Address) (size : Nat) : Result TradeInfo :=
  match path with
  | [input, output] => do
    let uniLiqPool := getTokenBalanceInPair S w .uni input output
    let sushiLiqPool := getTokenBalanceInPair S w .sushi input output
    let uniPercentage ← oneHopPercentage uniLiqPool sushiLiqPool
    TradeInfo.ofPercentage size uniPercentage
  | input :: middle :: output :: _ => do
    let uniLiqPoolA := getTokenBalanceInPair S w .uni input middle
    let uniLiqPoolB := getTokenBalanceInPair S w .uni output middle
    if uniLiqPoolA = 0 ∨ uniLiqPoolB = 0 then pure ⟨0, size⟩
    else
      let sushiLiqPoolA := getTokenBalanceInPair S w .sushi input middle
      let sushiLiqPoolB := getTokenBalanceInPair S w .sushi output middle
      if sushiLiqPoolA = 0 ∨ sushiLiqPoolB = 0 then pure ⟨size, 0⟩
      else
        let uniPercentage ← twoHopPercentage uniLiqPoolA uniLiqPoolB sushiLiqPoolA sushiLiqPoolB
        TradeInfo.ofPercentage size uniPercentage
  | _ => revert ""

/-- The quote of one exchange. There is none to ask for where the trade size is zero. -/
def getTradeInputOrOutput (venue : Venue) (size : Nat) (path : List Address)
    (isExactInput : Bool) : Result (List Nat) :=
  if size = 0 then pure (List.replicate path.length 0)
  else if isExactInput then (S.exchange venue).getAmountsOut (w.pools venue) size path
  else (S.exchange venue).getAmountsIn (w.pools venue) size path

def getAmounts (size : Nat) (path : List Address) (isExactInput : Bool) : Result (List Nat) := do
  checkPath path
  let tradeInfo ← getTradeSizes S w path size
  let uniTradeResults ← getTradeInputOrOutput S w .uni tradeInfo.uniSize path isExactInput
  let sushiTradeResults ← getTradeInputOrOutput S w .sushi tradeInfo.sushiSize path isExactInput
  (List.range path.length).mapM fun i => do
    let uniTradeResult ← access uniTradeResults i
    let sushiTradeResult ← access sushiTradeResults i
    SafeMath.add uniTradeResult sushiTradeResult

def getAmountsOut (amountIn : Nat) (path : List Address) : Result (List Nat) :=
  getAmounts S w amountIn path true

def getAmountsIn (amountOut : Nat) (path : List Address) : Result (List Nat) :=
  getAmounts S w amountOut path false

def maxUint256 : Nat := uintBound - 1

/-- An approval of a router whose allowance is below an amount. -/
def checkApproval (venue : Venue) (amount : Nat) (token : Address) : Result (SplitterState κ) :=
  if (w.tokens token).allowance S.self (S.exchange venue).router < amount then
    w.callToken token (·.approve S.self (S.exchange venue).router maxUint256)
  else pure w

def checkApprovals (uniAmount sushiAmount : Nat) (token : Address) : Result (SplitterState κ) := do
  let w ← checkApproval S w .uni uniAmount token
  checkApproval S w .sushi sushiAmount token

/-- A trade on one exchange. A trade size of zero is skipped. -/
def executeTrade (venue : Venue) (size : Nat) (path : List Address) (recipient : Address)
    (deadline : Nat) (isExactInput : Bool) : Result (SplitterState κ × Nat) :=
  if size = 0 then pure (w, 0)
  else if isExactInput then do
    let (m, amounts) ← (S.exchange venue).swapExactTokensForTokens (w.market venue) S.self size 0
      path recipient deadline
    let amount ← access amounts (path.length - 1)
    pure (w.withMarket venue m, amount)
  else do
    let (m, amounts) ← (S.exchange venue).swapTokensForExactTokens (w.market venue) S.self size
      maxUint256 path recipient deadline
    let amount ← access amounts 0
    pure (w.withMarket venue m, amount)

/-- The call of an account, with the state it leaves and the actual output amount. -/
def swapExactTokensForTokens (sender : Address) (amountIn amountOutMin : Nat)
    (path : List Address) (recipient : Address) (deadline : Nat) : Result (SplitterState κ × Nat) := do
  checkPath path
  let inputToken ← access path 0
  let w ← w.callToken inputToken (·.transferFrom S.self sender S.self amountIn)
  let tradeInfo ← getTradeSizes S w path amountIn
  let w ← checkApprovals S w tradeInfo.uniSize tradeInfo.sushiSize inputToken
  let (w, uniOutput) ← executeTrade S w .uni tradeInfo.uniSize path recipient deadline true
  let (w, sushiOutput) ← executeTrade S w .sushi tradeInfo.sushiSize path recipient deadline true
  let totalOutput ← SafeMath.add uniOutput sushiOutput
  require (amountOutMin ≤ totalOutput) "AMMSplitter: INSUFFICIENT_OUTPUT_AMOUNT"
  pure (w, totalOutput)

/-- The call of an account, with the state it leaves and the actual input amount. -/
def swapTokensForExactTokens (sender : Address) (amountOut amountInMax : Nat)
    (path : List Address) (recipient : Address) (deadline : Nat) : Result (SplitterState κ × Nat) := do
  checkPath path
  let tradeInfo ← getTradeSizes S w path amountOut
  let uniAmounts ← getTradeInputOrOutput S w .uni tradeInfo.uniSize path false
  let expectedUniInput ← access uniAmounts 0
  let sushiAmounts ← getTradeInputOrOutput S w .sushi tradeInfo.sushiSize path false
  let expectedSushiInput ← access sushiAmounts 0
  let totalInput ← SafeMath.add expectedUniInput expectedSushiInput
  require (totalInput ≤ amountInMax) "AMMSplitter: INSUFFICIENT_INPUT_AMOUNT"
  let inputToken ← access path 0
  let w ← w.callToken inputToken (·.transferFrom S.self sender S.self totalInput)
  let w ← checkApprovals S w expectedUniInput expectedSushiInput inputToken
  let (w, _) ← executeTrade S w .uni tradeInfo.uniSize path recipient deadline false
  let (w, _) ← executeTrade S w .sushi tradeInfo.sushiSize path recipient deadline false
  pure (w, totalInput)

end Calls

/-! ### Trade sizes -/

section Sizes
variable {size uniPercentage : Nat} {info : TradeInfo}

theorem TradeInfo.ofPercentage_eq_ok :
    TradeInfo.ofPercentage size uniPercentage = .ok info ↔
      size * uniPercentage < uintBound ∧ size * uniPercentage / preciseUnit ≤ size ∧
        info = ⟨size * uniPercentage / preciseUnit,
          size - size * uniPercentage / preciseUnit⟩ := by
  simp only [TradeInfo.ofPercentage, bind_eq_ok, preciseMul_eq_ok, SafeMath.sub_eq_ok, pure_eq_ok]
  constructor
  · rintro ⟨_, ⟨hbound, rfl⟩, _, ⟨hle, rfl⟩, rfl⟩
    exact ⟨hbound, hle, rfl⟩
  · rintro ⟨hbound, hle, rfl⟩
    exact ⟨_, ⟨hbound, rfl⟩, _, ⟨hle, rfl⟩, rfl⟩

variable {κ : Type} {S : AmmSplitter κ} {w : SplitterState κ} {path : List Address}

/-- The parts of a trade add up to it. -/
theorem getTradeSizes_add (h : getTradeSizes S w path size = .ok info) :
    info.uniSize + info.sushiSize = size := by
  have hof : ∀ {percentage}, TradeInfo.ofPercentage size percentage = .ok info →
      info.uniSize + info.sushiSize = size := by
    intro percentage h
    obtain ⟨_, hle, rfl⟩ := TradeInfo.ofPercentage_eq_ok.mp h
    exact Nat.add_sub_cancel' hle
  unfold getTradeSizes at h
  split at h
  · obtain ⟨_, _, h⟩ := bind_eq_ok.mp h
    exact hof h
  · dsimp only at h
    split_ifs at h
    · obtain rfl := pure_eq_ok.mp h
      exact Nat.zero_add size
    · obtain rfl := pure_eq_ok.mp h
      rfl
    · obtain ⟨_, _, h⟩ := bind_eq_ok.mp h
      exact hof h
  · cases h

end Sizes

end AmmSplitter

end IndexProtocol
