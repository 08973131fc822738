import IndexProtocol.Evm.Abi
import IndexProtocol.ArrayUtils
import Mathlib.Algebra.Order.BigOperators.Group.List

/-! The adapter between a SetToken and the 0x exchange.

Whoever trades supplies the calldata for the exchange. The adapter decodes the trade that the
calldata asks for, by the function it calls, and forwards it unchanged where the trade is the
one that was announced. -/
namespace IndexProtocol.ZeroExApiAdapter
open Evm Abi Bytes

/-- The pseudo token of the 0x API for ETH. -/
def ethAddress : Address := 0xEeeeeEeeeEeEeeEeEeEeeEEEeeeeEeeeeeeeEEeE

structure RfqOrder where
  makerToken : Address
  takerToken : Address
  makerAmount : BitVec 128
  takerAmount : BitVec 128
  maker : Address
  taker : Address
  txOrigin : Address
  pool : Nat
  expiry : BitVec 64
  salt : Nat
  deriving DecidableEq

structure Signature where
  signatureType : BitVec 8
  v : BitVec 8
  r : Nat
  s : Nat

/-- What calldata asks the exchange to do. -/
structure Trade where
  inputToken : Address
  outputToken : Address
  recipient : Address
  supportsRecipient : Bool
  inputTokenAmount : Nat
  minOutputTokenAmount : Nat

/-- A trade with what it returns going to the caller. -/
def Trade.ofCaller (inputToken outputToken : Address)
    (inputTokenAmount minOutputTokenAmount : Nat) : Trade :=
  ⟨inputToken, outputToken, 0, false, inputTokenAmount, minOutputTokenAmount⟩

/-! ### Orders -/

def decodeRfqOrder (data : Bytes) (offset : Nat) : Result RfqOrder := do
  let makerToken ← decodeBits 160 (word data offset)
  let takerToken ← decodeBits 160 (word data (offset + 32))
  let makerAmount ← decodeBits 128 (word data (offset + 64))
  let takerAmount ← decodeBits 128 (word data (offset + 96))
  let maker ← decodeBits 160 (word data (offset + 128))
  let taker ← decodeBits 160 (word data (offset + 160))
  let txOrigin ← decodeBits 160 (word data (offset + 192))
  let expiry ← decodeBits 64 (word data (offset + 256))
  pure ⟨makerToken, takerToken, makerAmount, takerAmount, maker, taker, txOrigin,
    word data (offset + 224), expiry, word data (offset + 288)⟩

def decodeSignature (data : Bytes) (offset : Nat) : Result Signature := do
  let signatureType ← decodeBits 8 (word data offset)
  let v ← decodeBits 8 (word data (offset + 32))
  pure ⟨signatureType, v, word data (offset + 64), word data (offset + 96)⟩

def getRfqOrderMakerFillAmount (order : RfqOrder) (takerTokenFillAmount : Nat) : Nat :=
  if order.takerAmount = 0 ∨ order.makerAmount = 0 ∨ takerTokenFillAmount = 0 then 0
  else order.makerAmount.toNat * takerTokenFillAmount % uintBound / order.takerAmount.toNat

/-- The amount in `uint256` is exact, as both factors are of half the width. -/
theorem getRfqOrderMakerFillAmount_eq (order : RfqOrder) (fill : BitVec 128) :
    getRfqOrderMakerFillAmount order fill.toNat =
      order.makerAmount.toNat * fill.toNat / order.takerAmount.toNat := by
  have hproduct : order.makerAmount.toNat * fill.toNat < uintBound :=
    (Nat.mul_lt_mul'' order.makerAmount.isLt fill.isLt).trans_eq (by rw [uintBound, ← Nat.pow_add])
  rw [getRfqOrderMakerFillAmount, Nat.mod_eq_of_lt hproduct]
  split
  · rename_i hzero
    rcases hzero with hzero | hzero | hzero <;> simp [hzero]
  · rfl

/-! ### Batches -/

structure Batch where
  orders : List RfqOrder
  takerTokenFillAmounts : List (BitVec 128)
  revertIfIncomplete : Bool
  deriving DecidableEq

def decodeBatch (args : Bytes) : Result Batch := do
  decodeHead args 4
  let ordersOffset ← decodeOffset args 0
  let orders ← decodeArray 320 (decodeRfqOrder args) args ordersOffset
  let fillsOffset ← decodeOffset args 64
  let takerTokenFillAmounts ←
    decodeArray 32 (fun offset => decodeBits 128 (word args offset)) args fillsOffset
  let revertIfIncomplete ← decodeBool (word args 96)
  pure ⟨orders, takerTokenFillAmounts, revertIfIncomplete⟩

/-- The loop over the orders, with sums that wrap. It reverts where there is no fill amount for
an order. -/
def sumAmounts : List RfqOrder → List (BitVec 128) → Nat × Nat → Result (Nat × Nat)
  | [], _, sums => pure sums
  | _ :: _, [], _ => revert ""
  | order :: orders, fill :: fills, (inputTokenAmount, minOutputTokenAmount) =>
    sumAmounts orders fills ((inputTokenAmount + fill.toNat) % uintBound,
      (minOutputTokenAmount + getRfqOrderMakerFillAmount order fill.toNat) % uintBound)

def decodeBatchFillRfqOrders (args : Bytes) : Result Trade := do
  let batch ← decodeBatch args
  match batch.orders with
  | [] => revert "Empty RFQ orders"
  | first :: _ =>
    require (batch.revertIfIncomplete = true) "batchFillRfqOrder must be all or nothing"
    let (inputTokenAmount, minOutputTokenAmount) ←
      sumAmounts batch.orders batch.takerTokenFillAmounts (0, 0)
    pure (Trade.ofCaller first.takerToken first.makerToken inputTokenAmount minOutputTokenAmount)

/-! ### The other functions of the exchange -/

def decodeTransformERC20 (args : Bytes) : Result Trade := do
  decodeHead args 4
  let inputToken ← decodeBits 160 (word args 0)
  let outputToken ← decodeBits 160 (word args 32)
  pure (Trade.ofCaller inputToken outputToken (word args 64) (word args 96))

/-- The recipient of a trade, for which zero stands for the caller. -/
def orDestination (recipient destinationAddress : Address) : Address :=
  if recipient = 0 then destinationAddress else recipient

def decodeSellToLiquidityProvider (destinationAddress : Address) (args : Bytes) :
    Result Trade := do
  decodeHead args 6
  let inputToken ← decodeBits 160 (word args 0)
  let outputToken ← decodeBits 160 (word args 32)
  let _provider : Address ← decodeBits 160 (word args 64)
  let recipient ← decodeBits 160 (word args 96)
  pure ⟨inputToken, outputToken, orDestination recipient destinationAddress, true,
    word args 128, word args 160⟩

/-- The ends of a path of tokens. -/
def endpoints (reason : String) (path : List Address) : Result (Address × Address) := do
  require (1 < path.length) reason
  pure (path.headD 0, path.getLastD 0)

def decodePath (args : Bytes) : Result (List Address) := do
  let offset ← decodeOffset args 0
  decodeArray 32 (fun offset => decodeBits 160 (word args offset)) args offset

def decodeSellToUniswap (args : Bytes) : Result Trade := do
  decodeHead args 3
  let path ← decodePath args
  let (inputToken, outputToken) ← endpoints "Uniswap token path too short" path
  pure (Trade.ofCaller inputToken outputToken (word args 32) (word args 64))

def decodeFillRfqOrder (args : Bytes) : Result Trade := do
  decodeHead args 15
  let order ← decodeRfqOrder args 0
  let _signature ← decodeSignature args 320
  let takerTokenFillAmount ← decodeBits 128 (word args 448)
  pure (Trade.ofCaller order.takerToken order.makerToken takerTokenFillAmount.toNat
    (getRfqOrderMakerFillAmount order takerTokenFillAmount.toNat))

/-- The sizes in a path of Uniswap V3: a token, a fee, a token and so on. -/
def uniswapV3PathAddressSize : Nat := 20
def uniswapV3PathFeeSize : Nat := 3
def uniswapV3SingleHopPathSize : Nat :=
  uniswapV3PathAddressSize + uniswapV3PathFeeSize + uniswapV3PathAddressSize
def uniswapV3SingleHopOffsetSize : Nat := uniswapV3PathAddressSize + uniswapV3PathFeeSize

/-- The token whose bytes stand at an offset. -/
def tokenAt (path : Bytes) (offset : Nat) : Address :=
  BitVec.ofNat 160 (toNat (slice path offset uniswapV3PathAddressSize))

def decodeTokensFromUniswapV3EncodedPath (encodedPath : Bytes) : Result (Address × Address) := do
  require (uniswapV3SingleHopPathSize ≤ encodedPath.length) "UniswapV3 token path too short"
  let numHops :=
    (encodedPath.length - uniswapV3PathAddressSize) / uniswapV3SingleHopOffsetSize
  let lastTokenOffset := numHops * uniswapV3SingleHopOffsetSize
  pure (tokenAt encodedPath 0, tokenAt encodedPath lastTokenOffset)

def decodeSellTokenForTokenToUniswapV3 (destinationAddress : Address) (args : Bytes) :
    Result Trade := do
  decodeHead args 4
  let offset ← decodeOffset args 0
  let encodedPath ← decodeBytes args offset
  let recipient ← decodeBits 160 (word args 96)
  let (inputToken, outputToken) ← decodeTokensFromUniswapV3EncodedPath encodedPath
  pure ⟨inputToken, outputToken, orDestination recipient destinationAddress, true,
    word args 32, word args 64⟩

def decodeMultiplexBatchSellTokenForToken (args : Bytes) : Result Trade := do
  decodeHead args 5
  let inputToken ← decodeBits 160 (word args 0)
  let outputToken ← decodeBits 160 (word args 32)
  pure (Trade.ofCaller inputToken outputToken (word args 96) (word args 128))

def decodeMultiplexMultiHopSellTokenForToken (args : Bytes) : Result Trade := do
  decodeHead args 4
  let tokens ← decodePath args
  let (inputToken, outputToken) ← endpoints "Multihop token path too short" tokens
  pure (Trade.ofCaller inputToken outputToken (word args 64) (word args 96))

/-! ### The adapter -/

def selector (data : Bytes) : Nat := toNat (slice data 0 4)

/-- The selector of `batchFillRfqOrders`. -/
def batchFillRfqOrders : Nat := 0x75103cb9

/-- The trade that calldata asks for. -/
def decodeTrade (destinationAddress : Address) (data : Bytes) : Result Trade :=
  let args := data.drop 4
  if selector data = 0x415565b0 ∨ selector data = 0x8182b61f then decodeTransformERC20 args
  else if selector data = 0xf7fcd384 then decodeSellToLiquidityProvider destinationAddress args
  else if selector data = 0xd9627aa4 then decodeSellToUniswap args
  else if selector data = 0xaa77476c then decodeFillRfqOrder args
  else if selector data = batchFillRfqOrders then decodeBatchFillRfqOrders args
  else if selector data = 0x6af479b2 then
    decodeSellTokenForTokenToUniswapV3 destinationAddress args
  else if selector data = 0x7a1eb1b9 then decodeMultiplexBatchSellTokenForToken args
  else if selector data = 0x0f3b31b2 then decodeMultiplexMultiHopSellTokenForToken args
  else revert "Unsupported 0xAPI function selector"

/-- The contract, the value and the calldata of the call that trades. -/
def getTradeCalldata (zeroExAddress sourceToken destinationToken destinationAddress : Address)
    (sourceQuantity minDestinationQuantity : Nat) (data : Bytes) :
    Result (Address × Nat × Bytes) := do
  require (4 ≤ data.length) "Invalid calldata"
  let trade ← decodeTrade destinationAddress data
  require (trade.inputToken ≠ ethAddress ∧ trade.outputToken ≠ ethAddress) "ETH not supported"
  require (trade.inputToken = sourceToken) "Mismatched input token"
  require (trade.outputToken = destinationToken) "Mismatched output token"
  require (trade.supportsRecipient = false ∨ trade.recipient = destinationAddress)
    "Mismatched recipient"
  require (trade.inputTokenAmount = sourceQuantity) "Mismatched input token quantity"
  require (minDestinationQuantity ≤ trade.minOutputTokenAmount) "Mismatched output token quantity"
  pure (zeroExAddress, 0, data)

variable {zeroExAddress sourceToken destinationToken destinationAddress : Address}
  {sourceQuantity minDestinationQuantity : Nat} {data : Bytes} {call : Address × Nat × Bytes}

/-- What a call is that the adapter forwards. -/
structure Accepted (zeroExAddress sourceToken destinationToken destinationAddress : Address)
    (sourceQuantity minDestinationQuantity : Nat) (data : Bytes) (trade : Trade)
    (call : Address × Nat × Bytes) : Prop where
  decoded : decodeTrade destinationAddress data = .ok trade
  inputToken : trade.inputToken = sourceToken
  outputToken : trade.outputToken = destinationToken
  recipient : trade.supportsRecipient = true → trade.recipient = destinationAddress
  inputTokenAmount : trade.inputTokenAmount = sourceQuantity
  minOutputTokenAmount : minDestinationQuantity ≤ trade.minOutputTokenAmount
  call : call = (zeroExAddress, 0, data)

theorem getTradeCalldata_accepted
    (h : getTradeCalldata zeroExAddress sourceToken destinationToken destinationAddress
      sourceQuantity minDestinationQuantity data = .ok call) :
    ∃ trade, Accepted zeroExAddress sourceToken destinationToken destinationAddress
      sourceQuantity minDestinationQuantity data trade call := by
  simp only [getTradeCalldata, bind_eq_ok, require_eq_ok, pure_eq_ok] at h
  obtain ⟨_, _, trade, htrade, _, _, _, hinput, _, houtput, _, hrecipient, _, hamount, _, hmin, hcall⟩
    := h
  refine ⟨trade, htrade, hinput, houtput, fun hsupports => ?_, hamount, hmin, hcall.symm⟩
  cases hrecipient with
  | inl hnot => exact absurd hsupports (by rw [hnot]; decide)
  | inr hrecipient => exact hrecipient

/-! ### What an accepted batch trades -/

/-- The maker amount that a fill amount of an order comes with. -/
def RfqOrder.makerFillAmount (order : RfqOrder) (fill : BitVec 128) : Nat :=
  order.makerAmount.toNat * fill.toNat / order.takerAmount.toNat

/-- What a sum over the orders adds up to, where the fill amounts of the orders fit. The sum of the
maker amounts may have wrapped, which makes it less. -/
theorem sumAmounts_eq_ok {orders : List RfqOrder} {fills : List (BitVec 128)} {a b x y : Nat}
    (h : sumAmounts orders fills (a, b) = .ok (x, y))
    (hfits : a + ((fills.take orders.length).map BitVec.toNat).sum < uintBound) :
    orders.length ≤ fills.length ∧
      x = a + ((fills.take orders.length).map BitVec.toNat).sum ∧
      y ≤ b + (List.zipWith RfqOrder.makerFillAmount orders fills).sum := by
  induction orders generalizing fills a b with
  | nil =>
    rw [sumAmounts, pure_eq_ok, Prod.mk.injEq] at h
    obtain ⟨rfl, rfl⟩ := h
    exact ⟨Nat.zero_le _, rfl, Nat.le_add_right _ _⟩
  | cons order orders ih =>
    cases fills with
    | nil => cases h
    | cons fill fills =>
      rw [List.length_cons, List.take_succ_cons, List.map_cons, List.sum_cons,
        ← Nat.add_assoc] at hfits
      rw [sumAmounts, Nat.mod_eq_of_lt (by omega), getRfqOrderMakerFillAmount_eq] at h
      obtain ⟨hlength, hx, hy⟩ := ih h hfits
      rw [List.length_cons, List.take_succ_cons, List.map_cons, List.sum_cons,
        List.zipWith_cons_cons, List.sum_cons]
      refine ⟨Nat.succ_le_succ hlength, by omega, hy.trans ?_⟩
      rw [← Nat.add_assoc]
      exact Nat.add_le_add_right (Nat.mod_le _ _) _

/-- So many fill amounts of half the width do not wrap. -/
theorem sum_fills_lt {fills : List (BitVec 128)} (h : fills.length < 2 ^ 64) :
    (fills.map BitVec.toNat).sum < uintBound := by
  have hsum : (fills.map BitVec.toNat).sum ≤ fills.length * 2 ^ 128 := by
    have := List.sum_le_card_nsmul (fills.map BitVec.toNat) (2 ^ 128) fun n hn => by
      obtain ⟨fill, _, rfl⟩ := List.mem_map.mp hn
      exact fill.isLt.le
    rwa [List.length_map, nsmul_eq_mul, Nat.cast_id] at this
  calc (fills.map BitVec.toNat).sum ≤ fills.length * 2 ^ 128 := hsum
    _ < 2 ^ 64 * 2 ^ 128 := Nat.mul_lt_mul_of_pos_right h (by decide)
    _ < uintBound := by decide

namespace Batch
variable {batch : Batch}

/-- What a batch trades that is to trade so much of one token for so much of another. -/
structure Trades (batch : Batch) (sourceToken destinationToken : Address)
    (sourceQuantity minDestinationQuantity : Nat) : Prop where
  takerToken : ∀ order ∈ batch.orders, order.takerToken = sourceToken
  makerToken : ∀ order ∈ batch.orders, order.makerToken = destinationToken
  length : batch.takerTokenFillAmounts.length = batch.orders.length
  input : (batch.takerTokenFillAmounts.map BitVec.toNat).sum = sourceQuantity
  output : minDestinationQuantity ≤
    (List.zipWith RfqOrder.makerFillAmount batch.orders batch.takerTokenFillAmounts).sum

/-- All orders are for the same tokens, with one fill amount each. -/
structure Uniform (batch : Batch) : Prop where
  tokens : ∀ order ∈ batch.orders, ∀ other ∈ batch.orders,
    order.takerToken = other.takerToken ∧ order.makerToken = other.makerToken
  length : batch.takerTokenFillAmounts.length = batch.orders.length

end Batch

theorem length_fills_lt {args : Bytes} {batch : Batch} (h : decodeBatch args = .ok batch) :
    batch.takerTokenFillAmounts.length < 2 ^ 64 := by
  simp only [decodeBatch, bind_eq_ok, pure_eq_ok] at h
  obtain ⟨_, _, _, _, _, _, _, _, fills, hfills, _, _, rfl⟩ := h
  exact length_decodeArray_lt hfills

theorem decodeBatchFillRfqOrders_eq_ok {args : Bytes} {trade : Trade}
    (h : decodeBatchFillRfqOrders args = .ok trade) :
    ∃ batch first rest sums, decodeBatch args = .ok batch ∧ batch.orders = first :: rest ∧
      sumAmounts batch.orders batch.takerTokenFillAmounts (0, 0) = .ok sums ∧
      trade = Trade.ofCaller first.takerToken first.makerToken sums.1 sums.2 := by
  rw [decodeBatchFillRfqOrders, bind_eq_ok] at h
  obtain ⟨batch, hbatch, h⟩ := h
  cases horders : batch.orders with
  | nil =>
    rw [horders] at h
    cases h
  | cons first rest =>
    simp only [horders, bind_eq_ok, pure_eq_ok] at h
    obtain ⟨_, _, sums, hsums, htrade⟩ := h
    exact ⟨batch, first, rest, sums, hbatch, horders, by rw [horders]; exact hsums, htrade.symm⟩

/-- What a batch with one fill amount for each order and no other adds up to. -/
theorem Batch.sums {batch : Batch} {sums : Nat × Nat}
    (hfills : batch.takerTokenFillAmounts.length < 2 ^ 64)
    (hlength : batch.takerTokenFillAmounts.length = batch.orders.length)
    (h : sumAmounts batch.orders batch.takerTokenFillAmounts (0, 0) = .ok sums) :
    sums.1 = (batch.takerTokenFillAmounts.map BitVec.toNat).sum ∧
      sums.2 ≤
        (List.zipWith RfqOrder.makerFillAmount batch.orders batch.takerTokenFillAmounts).sum := by
  have hall : batch.takerTokenFillAmounts.take batch.orders.length =
      batch.takerTokenFillAmounts := by rw [← hlength, List.take_length]
  have hspec := sumAmounts_eq_ok h (by rw [hall, Nat.zero_add]; exact sum_fills_lt hfills)
  rw [hall, Nat.zero_add, Nat.zero_add] at hspec
  exact hspec.2

/-- **What the adapter lets through.** Calldata that fills a batch of orders and is accepted trades
what was announced exactly if all its orders are for the same tokens and each has its fill amount:
only the tokens of the first order are compared, and fill amounts after the last order are not
counted. -/
theorem getTradeCalldata_trades_iff (hselector : selector data = batchFillRfqOrders)
    (h : getTradeCalldata zeroExAddress sourceToken destinationToken destinationAddress
      sourceQuantity minDestinationQuantity data = .ok call) :
    call = (zeroExAddress, 0, data) ∧ ∃ batch, decodeBatch (data.drop 4) = .ok batch ∧
      (batch.Trades sourceToken destinationToken sourceQuantity minDestinationQuantity ↔
        batch.Uniform) := by
  obtain ⟨trade, haccepted⟩ := getTradeCalldata_accepted h
  have hdecode : decodeTrade destinationAddress data =
      decodeBatchFillRfqOrders (data.drop 4) := by
    rw [decodeTrade, hselector]
    rfl
  obtain ⟨batch, first, rest, sums, hbatch, horders, hsums, rfl⟩ :=
    decodeBatchFillRfqOrders_eq_ok (hdecode ▸ haccepted.decoded)
  refine ⟨haccepted.call, batch, hbatch, fun htrades => ⟨?_, htrades.length⟩, fun huniform => ?_⟩
  · intro order horder other hother
    exact ⟨(htrades.takerToken order horder).trans (htrades.takerToken other hother).symm,
      (htrades.makerToken order horder).trans (htrades.makerToken other hother).symm⟩
  · have hfirst : first ∈ batch.orders := by rw [horders]; exact List.mem_cons_self
    obtain ⟨hinput, houtput⟩ := Batch.sums (length_fills_lt hbatch) huniform.length hsums
    refine ⟨fun order horder => ?_, fun order horder => ?_, huniform.length, ?_, ?_⟩
    · exact (huniform.tokens order horder first hfirst).1.trans haccepted.inputToken
    · exact (huniform.tokens order horder first hfirst).2.trans haccepted.outputToken
    · exact hinput.symm.trans haccepted.inputTokenAmount
    · exact haccepted.minOutputTokenAmount.trans houtput

/-- The calldata for a batch of two orders, of 10 for 5 each, in which the second order is for
the tokens given. -/
def batchOfTwo (makerToken takerToken : Nat) : Bytes :=
  Bytes.ofNat 4 batchFillRfqOrders ++ encodeWords [128, 0, 800, 1,
    2, 2, 1, 10, 5, 0, 0, 0, 0, 0, 0, makerToken, takerToken, 10, 5, 0, 0, 0, 0, 0, 0, 2, 5, 5]

/-- A batch for the tokens announced. -/
theorem getTradeCalldata_trades_iff_example :
    ∃ batch, decodeBatch ((batchOfTwo 2 1).drop 4) = .ok batch ∧ batch.Trades 1 2 10 20 := by
  have haccept : getTradeCalldata 9 1 2 7 10 20 (batchOfTwo 2 1) = .ok (9, 0, batchOfTwo 2 1) := by
    decide +kernel
  obtain ⟨_, batch, hbatch, htrades⟩ :=
    getTradeCalldata_trades_iff (by decide +kernel) haccept
  have heq : decodeBatch ((batchOfTwo 2 1).drop 4) =
      .ok ⟨List.replicate 2 ⟨2, 1, 10, 5, 0, 0, 0, 0, 0, 0⟩, [5, 5], true⟩ := by decide +kernel
  obtain rfl := Except.ok.inj (heq.symm.trans hbatch)
  exact ⟨_, hbatch, htrades.mpr ⟨by decide, rfl⟩⟩

/-- A batch is accepted whose second order sells another token, for another. -/
theorem getTradeCalldata_sells_others :
    ∃ call batch, selector (batchOfTwo 4 3) = batchFillRfqOrders ∧
      getTradeCalldata 9 1 2 7 10 20 (batchOfTwo 4 3) = .ok call ∧
      decodeBatch ((batchOfTwo 4 3).drop 4) = .ok batch ∧ ¬batch.Trades 1 2 10 20 := by
  refine ⟨(9, 0, batchOfTwo 4 3), ⟨[⟨2, 1, 10, 5, 0, 0, 0, 0, 0, 0⟩,
    ⟨4, 3, 10, 5, 0, 0, 0, 0, 0, 0⟩], [5, 5], true⟩, ?_, ?_, ?_, fun htrades => ?_⟩
  · decide +kernel
  · decide +kernel
  · decide +kernel
  · exact absurd htrades.takerToken (by decide)

end IndexProtocol.ZeroExApiAdapter
