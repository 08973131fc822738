import IndexProtocol.Strategy.Twap

/-! What keepers are told of the next trade.

`getChunkRebalanceNotional` derives the ratio aimed at, the direction and the
size of a trade anew. Its sizes are in the asset sold: the chunk itself where
collateral is sold, and the chunk's value at the oracle's price where the borrow
asset is. -/
namespace IndexProtocol
open Evm PreciseUnitMath Morpho

namespace MorphoLeverageStrategyExtension
variable {μ : Type}

/-- The assets that a call of the module sells and buys. -/
def soldAndBought (p : MarketParams) : ModuleCall → Option (Address × Address)
  | .enterCollateralPosition => none
  | .lever .. => some (p.loanToken, p.collateralToken)
  | .delever .. => some (p.collateralToken, p.loanToken)
  | .deleverToZeroBorrowBalance .. => some (p.collateralToken, p.loanToken)

/-- A chunk in the asset sold. -/
def sizeSold (collateralPrice chunk : Nat) : ModuleCall → Nat
  | .lever .. => chunk * collateralPrice / morphoOraclePriceScale
  | _ => chunk

/-- A function of keepers was called for the exchange and returned. -/
def KeeperCalled (morpho : MorphoBlue μ) (exchanges : Address → ExchangeAdapter)
    (w : StrategyWorld μ) (exchangeName : String) (v : StrategyWorld μ) (e : Executed) : Prop :=
  ∃ c, rebalance morpho exchanges w c exchangeName = .ok (v, e) ∨
    iterateRebalance morpho exchanges w c exchangeName = .ok (v, e) ∨
    ∃ transferred, ripcord morpho exchanges w c exchangeName = .ok (v, e, transferred)

/-- The extension was deployed with the tokens of its market. -/
structure MarketAssets (w : StrategyWorld μ) : Prop where
  collateral : w.extension.strategy.collateralAsset =
    (MorphoLeverageModule.params w.world).collateralToken
  borrow : w.extension.strategy.borrowAsset = (MorphoLeverageModule.params w.world).loanToken

/-- Previews for an exchange, alone or among others, give a size and the assets. -/
structure Previews (w : StrategyWorld μ) (morpho : MorphoBlue μ) (exchangeName : String)
    (size : Nat) (sold bought : Address) : Prop where
  alone : getChunkRebalanceNotional w morpho [exchangeName] = .ok ([size], sold, bought)
  among : ∀ names sizes sell buy,
    getChunkRebalanceNotional w morpho names = .ok (sizes, sell, buy) →
      sell = sold ∧ buy = bought ∧ ∀ size', (exchangeName, size') ∈ names.zip sizes → size' = size

variable {morpho : MorphoBlue μ} {exchanges : Address → ExchangeAdapter} {w v : StrategyWorld μ}
  {exchangeName : String} {e : Executed} {action : ActionInfo} {ratio newRatio chunk total : Nat}
  {isRipcord : Bool} {call : ModuleCall} {leverageInfo : LeverageInfo} {execution : ExecutionSettings}

/-! ### The arithmetic of a chunk -/

/-- At its own ratio nothing is traded. -/
theorem chunk_same_ratio {isLever : Bool}
    (h : calculateChunkRebalanceNotional execution leverageInfo leverageInfo.currentLeverageRatio
      isLever = .ok (chunk, total)) : chunk = 0 := by
  have hle := (chunk_le h).1
  simp only [calculateChunkRebalanceNotional, bind_eq_ok, pure_eq_ok, Prod.mk.injEq,
    preciseDiv_eq_ok, preciseMul_eq_ok] at h
  obtain ⟨difference, hdifference, _, ⟨_, _, rfl⟩, _, ⟨_, rfl⟩, _, _, _, rfl⟩ := h
  have hzero : difference = 0 := by
    cases isLever with
    | true =>
      rw [if_pos rfl, SafeMath.sub_eq_ok] at hdifference
      omega
    | false =>
      rw [if_neg Bool.false_ne_true, SafeMath.sub_eq_ok] at hdifference
      omega
  rw [hzero, Nat.zero_mul, Nat.zero_div, Nat.zero_mul, Nat.zero_div] at hle
  exact Nat.le_zero.mp hle

/-- The value of a chunk that is levered was computed before, up to rounding. -/
theorem chunk_value (h : calculateChunkRebalanceNotional execution leverageInfo newRatio true =
    .ok (chunk, total)) :
    calculateBorrowUnits chunk leverageInfo.action =
      .ok (chunk * leverageInfo.action.collateralPrice / morphoOraclePriceScale) := by
  simp only [calculateChunkRebalanceNotional, calculateMaxBorrowCollateral, if_true, bind_eq_ok,
    pure_eq_ok, Prod.mk.injEq, SafeMath.mul_eq_ok, SafeMath.div_eq_ok] at h
  obtain ⟨_, _, _, _, whole, _, maxBorrow, ⟨_, _, left, _, _, ⟨hfits, rfl⟩, _, hmax⟩, hchunk, _⟩ := h
  have hle : chunk ≤ maxBorrow := by
    rw [← hchunk]
    exact (min_le_left _ _).trans (min_le_left _ _)
  have hvalue : chunk * leverageInfo.action.collateralPrice ≤ left * morphoOraclePriceScale := by
    refine (Nat.mul_le_mul_right _ hle).trans ?_
    rw [← hmax]
    exact Nat.div_mul_le_self _ _
  exact valueAt_eq_ok.mpr ⟨hvalue.trans_lt hfits, rfl⟩

/-- A call that levers is made for something. -/
theorem lever_pos {module sender : Address} {x y : LeverageWorld μ} {units minUnits : Nat}
    {adapter : String} {data : List UInt8}
    (h : MorphoLeverageModule.lever morpho module exchanges x sender units minUnits adapter data =
      .ok y) : 0 < units := by
  simp only [MorphoLeverageModule.lever, MorphoLeverageModule.createAndValidateActionInfo,
    MorphoLeverageModule.createAndValidateActionInfoNotional, MorphoLeverageModule.validateCommon,
    bind_eq_ok, require_eq_ok, preciseMul_eq_ok] at h
  obtain ⟨_, _, _, ⟨_, ⟨_, rfl⟩, _, _, _, _, _, ⟨_, _, _, _, _, _, hquantity⟩, _⟩, _⟩ := h
  by_contra hzero
  rw [Nat.eq_zero_of_not_pos hzero, Nat.zero_mul, Nat.zero_div] at hquantity
  exact absurd hquantity (lt_irrefl 0)

theorem leverCallData_pos {x : StrategyExtension}
    (hdata : leverCallData x leverageInfo chunk = .ok call)
    (h : invokeManager morpho exchanges w call = .ok v) : 0 < chunk := by
  simp only [leverCallData, bind_eq_ok, pure_eq_ok, preciseDiv_eq_ok] at hdata
  obtain ⟨_, ⟨_, _, rfl⟩, borrowUnits, hborrow, _, _, rfl⟩ := hdata
  have hpos : 0 < borrowUnits := lever_pos (invokeManager_eq h).2
  by_contra hzero
  rw [Nat.eq_zero_of_not_pos hzero, Nat.zero_mul, Nat.zero_div] at hborrow
  have hnothing := (valueAt_eq_ok.mp hborrow).2
  rw [Nat.zero_mul, Nat.zero_div] at hnothing
  omega

/-! ### The preview of one exchange -/

/-- What the preview of the exchange returns is what the previews of a list return for it. -/
theorem Leveraged.previews (h : Leveraged w morpho action ratio)
    (hratio : previewRatio w ratio = .ok (newRatio, isRipcord)) {size : Nat}
    (hsize : previewSize w action ratio newRatio isRipcord (decide (ratio < newRatio)) exchangeName =
      .ok size) :
    Previews w morpho exchangeName size
      (if decide (ratio < newRatio) then w.extension.strategy.borrowAsset
        else w.extension.strategy.collateralAsset)
      (if decide (ratio < newRatio) then w.extension.strategy.collateralAsset
        else w.extension.strategy.borrowAsset) := by
  have hpreview (names : List String) : getChunkRebalanceNotional w morpho names =
      names.mapM (previewSize w action ratio newRatio isRipcord (decide (ratio < newRatio))) >>=
        fun sizes => pure (sizes,
          if decide (ratio < newRatio) then w.extension.strategy.borrowAsset
            else w.extension.strategy.collateralAsset,
          if decide (ratio < newRatio) then w.extension.strategy.collateralAsset
            else w.extension.strategy.borrowAsset) := by
    unfold getChunkRebalanceNotional
    rw [h.getCurrentLeverageRatio, ok_bind, hratio, ok_bind, h.read]
    rfl
  constructor
  · rw [hpreview, List.mapM_cons, hsize, ok_bind, List.mapM_nil]
    rfl
  · intro names sizes sell buy hnames
    rw [hpreview] at hnames
    simp only [bind_eq_ok, pure_eq_ok, Prod.mk.injEq, mapM_eq_ok] at hnames
    obtain ⟨_, hall, rfl, rfl, rfl⟩ := hnames
    refine ⟨rfl, rfl, fun size' hmem => ?_⟩
    have hone := (List.forall₂_iff_zip.mp hall).2 hmem
    exact Except.ok.inj (hone.symm.trans hsize)

/-- The leverage information that a preview is computed from. -/
def previewInfo (w : StrategyWorld μ) (action : ActionInfo) (ratio : Nat) (isRipcord : Bool)
    (exchangeName : String) : LeverageInfo :=
  ⟨action, ratio,
    if isRipcord then w.extension.incentive.incentivizedSlippageTolerance
      else w.extension.execution.slippageTolerance,
    if isRipcord then (w.extension.exchangeSettings exchangeName).incentivizedTwapMaxTradeSize
      else (w.extension.exchangeSettings exchangeName).twapMaxTradeSize,
    exchangeName⟩

section Directions
variable (h : Leveraged w morpho action ratio)
  (hratio : previewRatio w ratio = .ok (newRatio, isRipcord)) (hassets : MarketAssets w)
include h hratio hassets

/-- A sale of collateral is previewed as it is made. -/
theorem Leveraged.previews_delever (hlower : newRatio < ratio) {x : StrategyExtension}
    (hchunk : calculateChunkRebalanceNotional w.extension.execution
      (previewInfo w action ratio isRipcord exchangeName) newRatio false = .ok (chunk, total))
    (hdata : deleverCallData x leverageInfo chunk = .ok call) :
    ∃ sold bought, soldAndBought (MorphoLeverageModule.params w.world) call = some (sold, bought) ∧
      Previews w morpho exchangeName (sizeSold action.collateralPrice chunk call) sold bought := by
  simp only [deleverCallData, bind_eq_ok, pure_eq_ok] at hdata
  obtain ⟨_, _, _, _, rfl⟩ := hdata
  have hsell : decide (ratio < newRatio) = false := decide_eq_false (by omega)
  have hsize : previewSize w action ratio newRatio isRipcord (decide (ratio < newRatio))
      exchangeName = .ok chunk := by
    rw [hsell]
    unfold previewSize
    exact bind_eq_ok.mpr ⟨_, hchunk, rfl⟩
  have hpreviews := h.previews hratio hsize
  rw [hsell, if_neg Bool.false_ne_true, if_neg Bool.false_ne_true, hassets.collateral,
    hassets.borrow] at hpreviews
  exact ⟨_, _, rfl, hpreviews⟩

/-- A purchase of collateral is previewed at its value. -/
theorem Leveraged.previews_lever (hhigher : ratio < newRatio) {x : StrategyExtension}
    (hchunk : calculateChunkRebalanceNotional w.extension.execution
      (previewInfo w action ratio isRipcord exchangeName) newRatio true = .ok (chunk, total))
    (hdata : leverCallData x leverageInfo chunk = .ok call) :
    ∃ sold bought, soldAndBought (MorphoLeverageModule.params w.world) call = some (sold, bought) ∧
      Previews w morpho exchangeName (sizeSold action.collateralPrice chunk call) sold bought := by
  simp only [leverCallData, bind_eq_ok, pure_eq_ok] at hdata
  obtain ⟨_, _, _, _, _, _, rfl⟩ := hdata
  have hbuy : decide (ratio < newRatio) = true := decide_eq_true hhigher
  have hsize : previewSize w action ratio newRatio isRipcord (decide (ratio < newRatio))
      exchangeName = .ok (chunk * action.collateralPrice / morphoOraclePriceScale) := by
    rw [hbuy]
    unfold previewSize
    exact bind_eq_ok.mpr ⟨_, hchunk, chunk_value hchunk⟩
  have hpreviews := h.previews hratio hsize
  rw [hbuy, if_pos rfl, if_pos rfl, hassets.collateral, hassets.borrow] at hpreviews
  exact ⟨_, _, rfl, hpreviews⟩

/-- A rebalance is previewed as it is made. -/
theorem Leveraged.previews_handle
    (hhandle : handleRebalance morpho exchanges w (previewInfo w action ratio isRipcord exchangeName)
      newRatio = .ok (v, chunk, total, call)) :
    ∃ sold bought, soldAndBought (MorphoLeverageModule.params w.world) call = some (sold, bought) ∧
      Previews w morpho exchangeName (sizeSold action.collateralPrice chunk call) sold bought := by
  obtain ⟨hinvoke, ⟨hlower, hchunk, hdata⟩ | ⟨hhigher, hchunk, hdata⟩⟩ := handleRebalance_eq hhandle
  · exact h.previews_delever hratio hassets hlower hchunk hdata
  · rcases lt_or_eq_of_le hhigher with hlt | heq
    · exact h.previews_lever hratio hassets hlt hchunk hdata
    · have hpos := leverCallData_pos hdata hinvoke
      rw [← heq] at hchunk
      have hzero := chunk_same_ratio hchunk
      omega

end Directions

theorem createActionInfo_price (h : createActionInfo w morpho = .ok action) :
    w.oraclePrice (MorphoLeverageModule.params w.world).oracle = .ok action.collateralPrice := by
  simp only [createActionInfo, bind_eq_ok, pure_eq_ok] at h
  obtain ⟨_, hprice, _, _, ⟨_, _, _⟩, _, _, _, rfl⟩ := h
  exact hprice

/-- The information that a function traded with is that of a leveraged SetToken. -/
theorem leveraged_of_info {slippageTolerance size : Nat}
    (h : getAndValidateLeveragedInfo w morpho slippageTolerance size exchangeName =
      .ok leverageInfo) :
    Leveraged w morpho leverageInfo.action leverageInfo.currentLeverageRatio ∧
      leverageInfo = ⟨leverageInfo.action, leverageInfo.currentLeverageRatio, slippageTolerance,
        size, exchangeName⟩ := by
  obtain ⟨_, hread, hsupply, hcollateral, hdebt, hratio, rfl, rfl, rfl⟩ :=
    getAndValidateLeveragedInfo_eq_ok.mp h
  exact ⟨⟨hread, hsupply, hcollateral, hdebt, hratio⟩, rfl⟩

/-- **What keepers are told of a trade.** Where a function of keepers trades away from the
incentivized ratio, the preview for its exchange names the assets that the trade sells and buys, and
its size is the chunk in the asset sold. -/
theorem preview_agrees (hvalid : validateSettings w.extension = .ok ()) (hassets : MarketAssets w)
    (hcalled : KeeperCalled morpho exchanges w exchangeName v e) (htrade : e.trade = some call)
    (hboundary : ∀ ratio, getCurrentLeverageRatio w morpho = .ok ratio →
      ratio ≠ w.extension.incentive.incentivizedLeverageRatio) :
    ∃ price sold bought, w.oraclePrice (MorphoLeverageModule.params w.world).oracle = .ok price ∧
      soldAndBought (MorphoLeverageModule.params w.world) call = some (sold, bought) ∧
      Previews w morpho exchangeName (sizeSold price e.chunkRebalanceNotional call) sold bought := by
  suffices hpreviews : ∃ action ratio sold bought, Leveraged w morpho action ratio ∧
      soldAndBought (MorphoLeverageModule.params w.world) call = some (sold, bought) ∧
      Previews w morpho exchangeName
        (sizeSold action.collateralPrice e.chunkRebalanceNotional call) sold bought by
    obtain ⟨action, ratio, sold, bought, h, hsold, hpreview⟩ := hpreviews
    exact ⟨_, sold, bought, createActionInfo_price h.read, hsold, hpreview⟩
  obtain ⟨c, hrebalance | hiterate | ⟨transferred, hripcord⟩⟩ := hcalled
  · obtain ⟨_, info, _, hinfo, hbelow, hnone, hratio, hhandle, hmade, _⟩ := rebalance_eq hrebalance
    obtain rfl := Option.some.inj (htrade.symm.trans hmade)
    obtain ⟨h, heq⟩ := leveraged_of_info hinfo
    have hpreview : previewRatio w info.currentLeverageRatio = .ok (e.newLeverageRatio, false) := by
      rw [previewRatio, if_neg (by omega), if_neg (by omega), hratio]
      rfl
    rw [heq] at hhandle
    obtain ⟨sold, bought, hpreviews⟩ := h.previews_handle hpreview hassets hhandle
    exact ⟨_, _, sold, bought, h, hpreviews⟩
  · obtain ⟨info, hinfo, hbelow, hstored, hend⟩ := iterateRebalance_eq hiterate
    obtain ⟨h, heq⟩ := leveraged_of_info hinfo
    cases hend with
    | inl htraded =>
      obtain ⟨_, _, hhandle, hmade, _⟩ := htraded
      obtain rfl := Option.some.inj (htrade.symm.trans hmade)
      have hpreview : previewRatio w info.currentLeverageRatio =
          .ok (w.extension.twapLeverageRatio, false) := by
        rw [previewRatio, if_neg (by omega), if_pos hstored]
        rfl
      rw [heq] at hhandle
      obtain ⟨sold, bought, hpreviews⟩ := h.previews_handle hpreview hassets hhandle
      exact ⟨_, _, sold, bought, h, hpreviews⟩
    | inr hended => exact absurd (htrade.symm.trans hended.1) (Option.some_ne_none _)
  · obtain ⟨_, info, _, hinfo, hdue, hchunk, hdata, _, hmade, _⟩ := ripcord_eq hripcord
    obtain rfl := Option.some.inj (htrade.symm.trans hmade)
    obtain ⟨h, heq⟩ := leveraged_of_info hinfo
    have hratio : w.extension.incentive.incentivizedLeverageRatio < info.currentLeverageRatio := by
      simp only [validateRipcord, bind_eq_ok, require_eq_ok] at hdue
      obtain ⟨_, hdue, _⟩ := hdue
      exact lt_of_le_of_ne hdue (hboundary _ h.getCurrentLeverageRatio).symm
    have hpreview : previewRatio w info.currentLeverageRatio =
        .ok (w.extension.methodology.maxLeverageRatio, true) := by
      rw [previewRatio, if_pos hratio]
      rfl
    have hlower : w.extension.methodology.maxLeverageRatio < info.currentLeverageRatio :=
      ((validateNonExchangeSettings_eq_ok.mp hvalid).max_le_incentivized).trans_lt hratio
    rw [heq] at hchunk
    obtain ⟨sold, bought, hpreviews⟩ := h.previews_delever hpreview hassets hlower hchunk hdata
    exact ⟨_, _, sold, bought, h, hpreviews⟩

/-! A strategy below its minimum, where the collateral is worth the price in the borrow asset. -/

def examplePriced (price : Nat) : Result (StrategyWorld Ledger) := do
  let w ← exampleStrategy 100000 0 (3 * 10 ^ 24) (2 * 10 ^ 24)
  updateAnyoneCallable { w with oraclePrice := fun _ => pure (price * 10 ^ 36) } exampleOperator true

theorem preview_agrees_example : ∃ w v e call, examplePriced 2 = .ok w ∧
    rebalance reference MorphoLeverageModule.exampleExchange w exampleKeeper "exchange" =
      .ok (v, e) ∧ e.trade = some call ∧
    Previews w reference "exchange" (sizeSold (2 * 10 ^ 36) e.chunkRebalanceNotional call) 2 1 := by
  have h : (do
      let w ← examplePriced 2
      validateSettings w.extension
      let ratio ← getCurrentLeverageRatio w reference
      require (ratio ≠ w.extension.incentive.incentivizedLeverageRatio ∧
        w.extension.strategy.collateralAsset =
          (MorphoLeverageModule.params w.world).collateralToken ∧
        w.extension.strategy.borrowAsset = (MorphoLeverageModule.params w.world).loanToken ∧
        w.oraclePrice (MorphoLeverageModule.params w.world).oracle = Except.ok (2 * 10 ^ 36)) ""
      let traded ←
        rebalance reference MorphoLeverageModule.exampleExchange w exampleKeeper "exchange"
      require ((traded.2.trade.map fun call =>
        decide (soldAndBought (MorphoLeverageModule.params w.world) call = some (2, 1))) =
          some true) "") = .ok () := by
    decide +kernel
  simp only [bind_eq_ok, require_eq_ok, exists_const] at h
  obtain ⟨w, hw, ⟨⟩, hvalid, ratio, hratio, ⟨hboundary, hcollateral, hborrow, hprice⟩, ⟨v, e⟩,
    hrebalance, hassets⟩ := h
  obtain ⟨call, htrade, hassets⟩ := Option.map_eq_some_iff.mp hassets
  obtain ⟨price, sold, bought, hprice', hsold, hpreviews⟩ := preview_agrees hvalid
    ⟨hcollateral, hborrow⟩ ⟨exampleKeeper, .inl hrebalance⟩ htrade fun ratio' hratio' => by
      rwa [← Except.ok.inj (hratio.symm.trans hratio')]
  obtain rfl := Except.ok.inj (hprice.symm.trans hprice')
  cases Option.some.inj ((of_decide_eq_true hassets).symm.trans hsold)
  exact ⟨w, v, e, call, hw, hrebalance, htrade, hpreviews⟩

/-- Where the borrow asset is sold, the size told is not the chunk of the trade. -/
theorem preview_in_sold_asset : ∃ w v e, examplePriced 2 = .ok w ∧
    shouldRebalance w reference = .ok (["exchange", "other"], [.rebalance, .rebalance]) ∧
    rebalance reference MorphoLeverageModule.exampleExchange w exampleKeeper "exchange" =
      .ok (v, e) ∧ e.trade.isSome = true ∧ e.chunkRebalanceNotional = 10 ^ 23 ∧
    getChunkRebalanceNotional w reference ["exchange"] = .ok ([2 * 10 ^ 23], 2, 1) := by
  have h : (do
      let w ← examplePriced 2
      let traded ←
        rebalance reference MorphoLeverageModule.exampleExchange w exampleKeeper "exchange"
      require (shouldRebalance w reference =
          Except.ok (["exchange", "other"], [ShouldRebalance.rebalance, .rebalance]) ∧
        traded.2.trade.isSome = true ∧ traded.2.chunkRebalanceNotional = 10 ^ 23 ∧
        getChunkRebalanceNotional w reference ["exchange"] = Except.ok ([2 * 10 ^ 23], 2, 1)) "") =
      .ok () := by
    decide +kernel
  simp only [bind_eq_ok, require_eq_ok] at h
  obtain ⟨w, hw, ⟨v, e⟩, hrebalance, hanswer, htrade, hchunk, hpreview⟩ := h
  exact ⟨w, v, e, hw, hanswer, hrebalance, htrade, hchunk, hpreview⟩

end MorphoLeverageStrategyExtension

end IndexProtocol
