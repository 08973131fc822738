import IndexProtocol.Leverage.Effects
import IndexProtocol.Strategy.Keeper

/-! Runs of the strategy, from its deployment.

Keepers and the operator call the extension in any order; in between the world
changes in whatever way leaves the extension alone. A recorded run also remembers
the last call that traded. What one call does is said once for every function
that trades: the calls of the module it makes, and what it writes afterwards. -/
namespace IndexProtocol
open Evm PreciseUnitMath Morpho

namespace MorphoLeverageStrategyExtension
variable {μ : Type}

inductive Action (μ : Type) where
  | engage (c : Caller) (exchangeName : String)
  | rebalance (c : Caller) (exchangeName : String)
  | iterateRebalance (c : Caller) (exchangeName : String)
  | ripcord (c : Caller) (exchangeName : String)
  | disengage (c : Caller) (exchangeName : String)
  | setOverrideNoRebalanceInProgress (c : Caller) (override : Bool)
  | setMethodologySettings (c : Caller) (newSettings : MethodologySettings)
  | setExecutionSettings (c : Caller) (newSettings : ExecutionSettings)
  | setIncentiveSettings (c : Caller) (newSettings : IncentiveSettings)
  | addEnabledExchange (c : Caller) (exchangeName : String) (settings : ExchangeSettings)
  | removeEnabledExchange (c : Caller) (exchangeName : String)
  | updateEnabledExchange (c : Caller) (exchangeName : String) (settings : ExchangeSettings)
  | withdrawEtherBalance (c : Caller)
  | updateCallerStatus (c : Caller) (callers : List Address) (statuses : List Bool)
  | updateAnyoneCallable (c : Caller) (status : Bool)
  /-- Whatever else happens, the passing of time included. The extension is written by itself only. -/
  | elsewhere (manager : BaseManager) (world : LeverageWorld μ)
    (oraclePrice : Address → Result Nat) (ether : Address → Nat)

variable (morpho : MorphoBlue μ) (exchanges : Address → ExchangeAdapter)

/-- A call, with its event where it may trade. -/
def step (w : StrategyWorld μ) : Action μ → Result (StrategyWorld μ × Option Executed)
  | .engage c name => do
    let (w, e) ← MorphoLeverageStrategyExtension.engage morpho exchanges w c name
    pure (w, some e)
  | .rebalance c name => do
    let (w, e) ← MorphoLeverageStrategyExtension.rebalance morpho exchanges w c name
    pure (w, some e)
  | .iterateRebalance c name => do
    let (w, e) ← MorphoLeverageStrategyExtension.iterateRebalance morpho exchanges w c name
    pure (w, some e)
  | .ripcord c name => do
    let (w, e, _) ← MorphoLeverageStrategyExtension.ripcord morpho exchanges w c name
    pure (w, some e)
  | .disengage c name => do
    let (w, e) ← MorphoLeverageStrategyExtension.disengage morpho exchanges w c name
    pure (w, some e)
  | .setOverrideNoRebalanceInProgress c override => do
    let w ← MorphoLeverageStrategyExtension.setOverrideNoRebalanceInProgress w c override
    pure (w, none)
  | .setMethodologySettings c newSettings => do
    let w ← MorphoLeverageStrategyExtension.setMethodologySettings w c newSettings
    pure (w, none)
  | .setExecutionSettings c newSettings => do
    let w ← MorphoLeverageStrategyExtension.setExecutionSettings w c newSettings
    pure (w, none)
  | .setIncentiveSettings c newSettings => do
    let w ← MorphoLeverageStrategyExtension.setIncentiveSettings w c newSettings
    pure (w, none)
  | .addEnabledExchange c name settings => do
    let w ← MorphoLeverageStrategyExtension.addEnabledExchange w c name settings
    pure (w, none)
  | .removeEnabledExchange c name => do
    let w ← MorphoLeverageStrategyExtension.removeEnabledExchange w c name
    pure (w, none)
  | .updateEnabledExchange c name settings => do
    let w ← MorphoLeverageStrategyExtension.updateEnabledExchange w c name settings
    pure (w, none)
  | .withdrawEtherBalance c => do
    let w ← MorphoLeverageStrategyExtension.withdrawEtherBalance w c
    pure (w, none)
  | .updateCallerStatus c callers statuses => do
    let w ← MorphoLeverageStrategyExtension.updateCallerStatus w c callers statuses
    pure (w, none)
  | .updateAnyoneCallable c status => do
    let w ← MorphoLeverageStrategyExtension.updateAnyoneCallable w c status
    pure (w, none)
  | .elsewhere manager world oraclePrice ether =>
    pure (⟨w.extension, manager, world, oraclePrice, ether⟩, none)

/-- A state of a run, with the last call so far that traded. -/
structure Recorded (μ : Type) where
  world : StrategyWorld μ
  lastTrade : Option Executed

def record (r : Recorded μ) (a : Action μ) : Result (Recorded μ) := do
  let (w, executed) ← step morpho exchanges r.world a
  pure ⟨w, (executed.filter (·.trade.isSome)).or r.lastTrade⟩

variable {morpho exchanges} {w v : StrategyWorld μ} {c : Caller} {exchangeName : String}
  {e : Executed}

/-! ### Calls of the module -/

/-- A call of the module leaves the rest of the world as its parts do. -/
theorem run_steady {call : ModuleCall} {module sender : Address} {x y : LeverageWorld μ}
    (h : call.run morpho module exchanges sender x = .ok y) : MorphoLeverageModule.Steady x y := by
  cases call with
  | enterCollateralPosition => exact (MorphoLeverageModule.enterCollateralPosition_effect h).1
  | lever units minUnits adapter data =>
    obtain ⟨_, _, _, hborrow, hsupply, _⟩ := MorphoLeverageModule.lever_effect h
    exact hborrow.trans hsupply
  | delever units minUnits adapter data =>
    obtain ⟨_, _, _, _, _, hwithdraw, hrepay, _⟩ := MorphoLeverageModule.delever_effect h
    exact hwithdraw.trans hrepay
  | deleverToZeroBorrowBalance units adapter data =>
    exact MorphoLeverageModule.deleverToZeroBorrowBalance_steady h

theorem invokeManager_eq {call : ModuleCall} (h : invokeManager morpho exchanges w call = .ok v) :
    v.extension = w.extension ∧
      call.run morpho w.extension.strategy.leverageModule exchanges w.manager.self w.world =
        .ok v.world := by
  simp only [invokeManager, BaseManager.interactManager, bind_eq_ok, pure_eq_ok] at h
  obtain ⟨world, ⟨_, _, _, _, _, _, _, _, hrun⟩, rfl⟩ := h
  exact ⟨rfl, hrun⟩

theorem invokeManager_timestamp {call : ModuleCall}
    (h : invokeManager morpho exchanges w call = .ok v) : timestamp v = timestamp w :=
  (run_steady (invokeManager_eq h).2).timestamp

/-! ### The functions that trade -/

theorem lever_eq {leverageInfo : LeverageInfo} {chunk : Nat} {call : ModuleCall}
    (h : lever morpho exchanges w leverageInfo chunk = .ok (v, call)) :
    leverCallData w.extension leverageInfo chunk = .ok call ∧
      invokeManager morpho exchanges w call = .ok v := by
  simp only [lever, bind_eq_ok, pure_eq_ok, Prod.mk.injEq] at h
  obtain ⟨_, hdata, _, hinvoke, rfl, rfl⟩ := h
  exact ⟨hdata, hinvoke⟩

theorem delever_eq {leverageInfo : LeverageInfo} {chunk : Nat} {call : ModuleCall}
    (h : delever morpho exchanges w leverageInfo chunk = .ok (v, call)) :
    deleverCallData w.extension leverageInfo chunk = .ok call ∧
      invokeManager morpho exchanges w call = .ok v := by
  simp only [delever, bind_eq_ok, pure_eq_ok, Prod.mk.injEq] at h
  obtain ⟨_, hdata, _, hinvoke, rfl, rfl⟩ := h
  exact ⟨hdata, hinvoke⟩

theorem deleverToZeroBorrowBalance_eq {leverageInfo : LeverageInfo} {chunk : Nat}
    {call : ModuleCall}
    (h : deleverToZeroBorrowBalance morpho exchanges w leverageInfo chunk = .ok (v, call)) :
    invokeManager morpho exchanges w call = .ok v := by
  simp only [deleverToZeroBorrowBalance, bind_eq_ok, pure_eq_ok, Prod.mk.injEq] at h
  obtain ⟨_, _, _, hinvoke, rfl, rfl⟩ := h
  exact hinvoke

/-- A rebalance makes one call of the module, which levers, or delevers a chunk that is computed. -/
theorem handleRebalance_eq {leverageInfo : LeverageInfo} {newLeverageRatio chunk total : Nat}
    {call : ModuleCall}
    (h : handleRebalance morpho exchanges w leverageInfo newLeverageRatio =
      .ok (v, chunk, total, call)) :
    invokeManager morpho exchanges w call = .ok v ∧
      (newLeverageRatio < leverageInfo.currentLeverageRatio ∧
          calculateChunkRebalanceNotional w.extension.execution leverageInfo newLeverageRatio false =
            .ok (chunk, total) ∧
          deleverCallData w.extension leverageInfo chunk = .ok call ∨
        leverageInfo.currentLeverageRatio ≤ newLeverageRatio ∧
          calculateChunkRebalanceNotional w.extension.execution leverageInfo newLeverageRatio true =
            .ok (chunk, total) ∧
          leverCallData w.extension leverageInfo chunk = .ok call) := by
  unfold handleRebalance at h
  by_cases hlower : newLeverageRatio < leverageInfo.currentLeverageRatio
  · rw [if_pos hlower] at h
    simp only [bind_eq_ok, pure_eq_ok, Prod.mk.injEq] at h
    obtain ⟨⟨_, _⟩, hchunk, ⟨_, _⟩, hdelever, rfl, rfl, rfl, rfl⟩ := h
    obtain ⟨hdata, hinvoke⟩ := delever_eq hdelever
    exact ⟨hinvoke, .inl ⟨hlower, hchunk, hdata⟩⟩
  · rw [if_neg hlower] at h
    simp only [bind_eq_ok, pure_eq_ok, Prod.mk.injEq] at h
    obtain ⟨⟨_, _⟩, hchunk, ⟨_, _⟩, hlever, rfl, rfl, rfl, rfl⟩ := h
    obtain ⟨hdata, hinvoke⟩ := lever_eq hlever
    exact ⟨hinvoke, .inr ⟨not_lt.mp hlower, hchunk, hdata⟩⟩

/-- The collateral is entered, and the strategy levers without a debt. -/
theorem engage_eq (h : engage morpho exchanges w c exchangeName = .ok (v, e)) :
    ∃ w₁ w₂ info leverageInfo call,
      invokeManager morpho exchanges w .enterCollateralPosition = .ok w₁ ∧
      createActionInfo w₁ morpho = .ok info ∧ info.borrowBalance = 0 ∧
      leverCallData w₁.extension leverageInfo e.chunkRebalanceNotional = .ok call ∧
      invokeManager morpho exchanges w₁ call = .ok w₂ ∧ e.trade = some call ∧
      v = updateRebalanceState w₂ e.chunkRebalanceNotional e.totalRebalanceNotional
        e.newLeverageRatio exchangeName := by
  simp only [engage, bind_eq_ok, require_eq_ok, exists_const, pure_eq_ok, Prod.mk.injEq] at h
  obtain ⟨_, _, w₁, henter, info, hinfo, _, _, hdebt, ⟨chunk, total⟩, _, ⟨w₂, call⟩, hlever, rfl,
    rfl⟩ := h
  obtain ⟨hdata, hinvoke⟩ := lever_eq hlever
  exact ⟨w₁, w₂, info, _, call, henter, hinfo, hdebt, hdata, hinvoke, rfl, rfl⟩

theorem validateNormalRebalance_lt {leverageInfo : LeverageInfo}
    {coolDown last : Nat} {u : Unit}
    (h : validateNormalRebalance w leverageInfo coolDown last = .ok u) :
    leverageInfo.currentLeverageRatio < w.extension.incentive.incentivizedLeverageRatio := by
  simp only [validateNormalRebalance, bind_eq_ok, require_eq_ok] at h
  obtain ⟨_, hlt, _⟩ := h
  exact hlt

theorem rebalance_eq (h : rebalance morpho exchanges w c exchangeName = .ok (v, e)) :
    ∃ w₁ leverageInfo call,
      getAndValidateLeveragedInfo w morpho w.extension.execution.slippageTolerance
        (w.extension.exchangeSettings exchangeName).twapMaxTradeSize exchangeName =
          .ok leverageInfo ∧
      leverageInfo.currentLeverageRatio < w.extension.incentive.incentivizedLeverageRatio ∧
      w.extension.twapLeverageRatio = 0 ∧
      calculateNewLeverageRatio w.extension.methodology leverageInfo.currentLeverageRatio =
        .ok e.newLeverageRatio ∧
      handleRebalance morpho exchanges w leverageInfo e.newLeverageRatio =
        .ok (w₁, e.chunkRebalanceNotional, e.totalRebalanceNotional, call) ∧
      e.trade = some call ∧
      v = updateRebalanceState w₁ e.chunkRebalanceNotional e.totalRebalanceNotional
        e.newLeverageRatio exchangeName := by
  simp only [rebalance, bind_eq_ok, pure_eq_ok, Prod.mk.injEq] at h
  obtain ⟨_, _, _, _, leverageInfo, hinfo, _, hnormal, _, htwap, newRatio, hratio,
    ⟨w₁, chunk, total, call⟩, hhandle, rfl, rfl⟩ := h
  exact ⟨w₁, leverageInfo, call, hinfo, validateNormalRebalance_lt hnormal,
    require_eq_ok.mp htwap, hratio, hhandle, rfl, rfl⟩

/-- Either the rebalance goes on toward the stored ratio, or it ends without a trade. -/
theorem iterateRebalance_eq (h : iterateRebalance morpho exchanges w c exchangeName = .ok (v, e)) :
    ∃ leverageInfo,
      getAndValidateLeveragedInfo w morpho w.extension.execution.slippageTolerance
        (w.extension.exchangeSettings exchangeName).twapMaxTradeSize exchangeName =
          .ok leverageInfo ∧
      leverageInfo.currentLeverageRatio < w.extension.incentive.incentivizedLeverageRatio ∧
      0 < w.extension.twapLeverageRatio ∧
      ((∃ w₁ call, handleRebalance morpho exchanges w leverageInfo w.extension.twapLeverageRatio =
            .ok (w₁, e.chunkRebalanceNotional, e.totalRebalanceNotional, call) ∧
          e.trade = some call ∧
          v = updateIterateState w₁ e.chunkRebalanceNotional e.totalRebalanceNotional exchangeName) ∨
        e.trade = none ∧ v = updateIterateState w 0 0 exchangeName) := by
  simp only [iterateRebalance, bind_eq_ok] at h
  obtain ⟨_, _, _, _, leverageInfo, hinfo, _, hnormal, _, htwap, h⟩ := h
  refine ⟨leverageInfo, hinfo, validateNormalRebalance_lt hnormal, require_eq_ok.mp htwap, ?_⟩
  by_cases hadvantageous : isAdvantageousTWAP w leverageInfo.currentLeverageRatio = false
  · rw [if_pos hadvantageous] at h
    simp only [bind_eq_ok, pure_eq_ok, Prod.mk.injEq] at h
    obtain ⟨⟨w₁, chunk, total, call⟩, hhandle, rfl, rfl⟩ := h
    exact .inl ⟨w₁, call, hhandle, rfl, rfl⟩
  · rw [if_neg hadvantageous] at h
    simp only [pure_eq_ok, Prod.mk.injEq] at h
    obtain ⟨rfl, rfl⟩ := h
    exact .inr ⟨rfl, rfl⟩

theorem ripcord_eq {transferred : Nat}
    (h : ripcord morpho exchanges w c exchangeName = .ok (v, e, transferred)) :
    ∃ w₁ leverageInfo call,
      getAndValidateLeveragedInfo w morpho w.extension.incentive.incentivizedSlippageTolerance
        (w.extension.exchangeSettings exchangeName).incentivizedTwapMaxTradeSize exchangeName =
          .ok leverageInfo ∧
      validateRipcord w leverageInfo
        (w.extension.exchangeSettings exchangeName).exchangeLastTradeTimestamp = .ok () ∧
      calculateChunkRebalanceNotional w.extension.execution leverageInfo
        w.extension.methodology.maxLeverageRatio false =
          .ok (e.chunkRebalanceNotional, e.totalRebalanceNotional) ∧
      deleverCallData w.extension leverageInfo e.chunkRebalanceNotional = .ok call ∧
      invokeManager morpho exchanges w call = .ok w₁ ∧ e.trade = some call ∧
      v.extension = (updateRipcordState w₁ exchangeName).extension ∧
      v.world = (updateRipcordState w₁ exchangeName).world := by
  simp only [ripcord, bind_eq_ok, pure_eq_ok, Prod.mk.injEq] at h
  obtain ⟨_, _, leverageInfo, hinfo, _, hvalid, ⟨chunk, total⟩, hchunk, ⟨w₁, call⟩, hdelever, rfl,
    rfl, _⟩ := h
  obtain ⟨hdata, hinvoke⟩ := delever_eq hdelever
  exact ⟨w₁, leverageInfo, call, hinfo, hvalid, hchunk, hdata, hinvoke, rfl, rfl, rfl⟩

/-- A part of the collateral is sold, or the debt is cleared. -/
theorem disengage_eq (h : disengage morpho exchanges w c exchangeName = .ok (v, e)) :
    ∃ leverageInfo call,
      getAndValidateLeveragedInfo w morpho w.extension.execution.slippageTolerance
        (w.extension.exchangeSettings exchangeName).twapMaxTradeSize exchangeName =
          .ok leverageInfo ∧
      calculateChunkRebalanceNotional w.extension.execution leverageInfo preciseUnit false =
        .ok (e.chunkRebalanceNotional, e.totalRebalanceNotional) ∧
      invokeManager morpho exchanges w call = .ok v ∧ e.trade = some call ∧
      (e.chunkRebalanceNotional < e.totalRebalanceNotional →
        deleverCallData w.extension leverageInfo e.chunkRebalanceNotional = .ok call) := by
  simp only [disengage, bind_eq_ok, pure_eq_ok, Prod.mk.injEq] at h
  obtain ⟨_, _, leverageInfo, hinfo, ⟨chunk, total⟩, hchunk, ⟨w₁, call⟩, htrade, rfl, rfl⟩ := h
  refine ⟨leverageInfo, call, hinfo, hchunk, ?_⟩
  by_cases hpart : chunk < total
  · rw [if_pos hpart] at htrade
    obtain ⟨hdata, hinvoke⟩ := delever_eq htrade
    exact ⟨hinvoke, rfl, fun _ => hdata⟩
  · rw [if_neg hpart] at htrade
    exact ⟨deleverToZeroBorrowBalance_eq htrade, rfl, fun hlt => absurd hlt hpart⟩

/-! ### The functions that administer -/

/-- A call that says who may call and where to trade: nothing that it writes is read by a rebalance
in progress. -/
def Action.IsAdministrative : Action μ → Prop
  | .setOverrideNoRebalanceInProgress .. => True
  | .addEnabledExchange .. => True
  | .removeEnabledExchange .. => True
  | .updateEnabledExchange .. => True
  | .withdrawEtherBalance .. => True
  | .updateCallerStatus .. => True
  | .updateAnyoneCallable .. => True
  | _ => False

/-- It does not trade, and leaves the settings, the stored ratio and the world. -/
structure Administered (w v : StrategyWorld μ) (executed : Option Executed) : Prop where
  executed : executed = none
  methodology : v.extension.methodology = w.extension.methodology
  execution : v.extension.execution = w.extension.execution
  incentive : v.extension.incentive = w.extension.incentive
  twapLeverageRatio : v.extension.twapLeverageRatio = w.extension.twapLeverageRatio
  world : v.world = w.world

theorem step_administered {a : Action μ} {executed : Option Executed}
    (h : step morpho exchanges w a = .ok (v, executed)) (ha : a.IsAdministrative) :
    Administered w v executed := by
  cases a with
  | setOverrideNoRebalanceInProgress c override =>
    simp only [step, setOverrideNoRebalanceInProgress, bind_eq_ok, pure_eq_ok, Prod.mk.injEq] at h
    obtain ⟨_, ⟨_, _, rfl⟩, rfl, rfl⟩ := h
    exact ⟨rfl, rfl, rfl, rfl, rfl, rfl⟩
  | addEnabledExchange c name settings =>
    simp only [step, addEnabledExchange, bind_eq_ok, pure_eq_ok, Prod.mk.injEq] at h
    obtain ⟨_, ⟨_, _, _, _, _, _, rfl⟩, rfl, rfl⟩ := h
    exact ⟨rfl, rfl, rfl, rfl, rfl, rfl⟩
  | removeEnabledExchange c name =>
    simp only [step, removeEnabledExchange, bind_eq_ok, pure_eq_ok, Prod.mk.injEq] at h
    obtain ⟨_, ⟨_, _, _, _, _, _, rfl⟩, rfl, rfl⟩ := h
    exact ⟨rfl, rfl, rfl, rfl, rfl, rfl⟩
  | updateEnabledExchange c name settings =>
    simp only [step, updateEnabledExchange, bind_eq_ok, pure_eq_ok, Prod.mk.injEq] at h
    obtain ⟨_, ⟨_, _, _, _, _, _, rfl⟩, rfl, rfl⟩ := h
    exact ⟨rfl, rfl, rfl, rfl, rfl, rfl⟩
  | withdrawEtherBalance c =>
    simp only [step, withdrawEtherBalance, bind_eq_ok, pure_eq_ok, Prod.mk.injEq] at h
    obtain ⟨_, ⟨_, _, _, _, rfl⟩, rfl, rfl⟩ := h
    exact ⟨rfl, rfl, rfl, rfl, rfl, rfl⟩
  | updateCallerStatus c callers statuses =>
    simp only [step, updateCallerStatus, bind_eq_ok, pure_eq_ok, Prod.mk.injEq] at h
    obtain ⟨_, ⟨_, _, _, _, _, _, _, _, _, _, rfl⟩, rfl, rfl⟩ := h
    exact ⟨rfl, rfl, rfl, rfl, rfl, rfl⟩
  | updateAnyoneCallable c status =>
    simp only [step, updateAnyoneCallable, bind_eq_ok, pure_eq_ok, Prod.mk.injEq] at h
    obtain ⟨_, ⟨_, _, rfl⟩, rfl, rfl⟩ := h
    exact ⟨rfl, rfl, rfl, rfl, rfl, rfl⟩
  | _ => exact ha.elim

/-! ### Deployment -/

theorem enableExchange_eq {x y : StrategyExtension} {entry : String × ExchangeSettings}
    (h : enableExchange x entry = .ok y) :
    entry.2.twapMaxTradeSize ≠ 0 ∧
      y = { x with
        exchangeSettings := Function.update x.exchangeSettings entry.1 entry.2
        enabledExchanges := x.enabledExchanges ++ [entry.1] } := by
  simp only [enableExchange, bind_eq_ok, validateExchangeSettings_eq_ok, exists_const,
    pure_eq_ok] at h
  exact ⟨h.1, h.2.symm⟩

/-- Nothing is in progress when the strategy is deployed. -/
theorem deploy_twap {self : Address} {strategy : ContractSettings}
    {methodology : MethodologySettings} {execution : ExecutionSettings}
    {incentive : IncentiveSettings} {names : List String} {settings : List ExchangeSettings}
    {x : StrategyExtension}
    (h : deploy self strategy methodology execution incentive names settings = .ok x) :
    x.twapLeverageRatio = 0 := by
  simp only [deploy, bind_eq_ok, pure_eq_ok] at h
  obtain ⟨_, _, x, hruns, _, _, rfl⟩ := h
  refine runs_invariant (fun x : StrategyExtension => x.twapLeverageRatio = 0) ?_ rfl hruns
  intro x entry y hx hy
  rw [(enableExchange_eq hy).2]
  exact hx

theorem exampleStrategy_deployed {time collateral debt : Nat} {w : StrategyWorld Ledger}
    (h : exampleStrategy time 0 collateral debt = .ok w) :
    deploy 40 ⟨50, 1, 2⟩ exampleMethodology exampleExecution exampleIncentive ["exchange", "other"]
      [⟨10 ^ 23, 0, 10 ^ 24, [], []⟩, ⟨10 ^ 23, 0, 0, [], []⟩] = .ok w.extension := by
  simp only [exampleStrategy, bind_eq_ok, pure_eq_ok] at h
  obtain ⟨x, hx, _, _, _, _, rfl⟩ := h
  have hsame : { x with twapLeverageRatio := 0 } = x := by rw [← deploy_twap hx]
  rw [hsame]
  exact hx

end MorphoLeverageStrategyExtension

end IndexProtocol
