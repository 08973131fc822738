import IndexProtocol.Leverage.Lifecycle
import IndexProtocol.Strategy.Exchanges

/-! When a rebalance is in progress.

A ratio is stored while a rebalance is cut into chunks, and calls that would
interfere are refused until it is cleared. `rebalance`, `iterateRebalance` and
`ripcord` keep to that. `disengage` does not look at the stored ratio: where it
clears the debt in one trade, the ratio stays behind without anything left to
rebalance. -/
namespace IndexProtocol
open Evm PreciseUnitMath Morpho

namespace MorphoLeverageStrategyExtension
variable {μ : Type} (morpho : MorphoBlue μ) (exchanges : Address → ExchangeAdapter)

/-- While a ratio is stored there is a debt, and the last trade left a part of its total. -/
def Live (r : Recorded μ) : Prop :=
  r.world.extension.twapLeverageRatio ≠ 0 →
    MorphoLeverageModule.owed morpho r.world.world ≠ 0 ∧
    ∃ e, r.lastTrade = some e ∧ e.chunkRebalanceNotional < e.totalRebalanceNotional

/-- What the exchange pays for the collateral of the call is less than the debt, in shares. -/
def Outlasts (w : StrategyWorld μ) : ModuleCall → Prop
  | .delever units minUnits adapter data => ∀ x repaid market,
    MorphoLeverageModule.deleverProceeds morpho w.extension.strategy.leverageModule exchanges w.world
      units minUnits adapter data = .ok (x, repaid) →
    morpho.accruedMarket w.world.rest.others.morpho (timestamp w)
      (MorphoLeverageModule.params w.world) = .ok market →
    SharesMath.sharesOf repaid market.totalBorrowAssets market.totalBorrowShares <
      MorphoLeverageModule.owed morpho w.world
  | _ => True

/-- The debt outlasts a sale of a part of what is to be sold toward the ratio. -/
def PartOutlasts (w : StrategyWorld μ) (leverageInfo : LeverageInfo) (ratio : Nat) : Prop :=
  ∀ chunk total call,
    calculateChunkRebalanceNotional w.extension.execution leverageInfo ratio false =
      .ok (chunk, total) →
    chunk < total → deleverCallData w.extension leverageInfo chunk = .ok call →
    Outlasts morpho exchanges w call

/-- The information with which the functions of keepers and of the operator trade. -/
def tradeInfo (w : StrategyWorld μ) (exchangeName : String) : Result LeverageInfo :=
  getAndValidateLeveragedInfo w morpho w.extension.execution.slippageTolerance
    (w.extension.exchangeSettings exchangeName).twapMaxTradeSize exchangeName

/-- A call that does not clear the debt during a rebalance: no part that is sold repays all of it,
and `disengage` does not clear it in one trade. Others leave the debt alone. -/
def Unclearing (r : Recorded μ) : Action μ → Prop
  | .rebalance _ name => ∀ info ratio, tradeInfo morpho r.world name = .ok info →
    calculateNewLeverageRatio r.world.extension.methodology info.currentLeverageRatio = .ok ratio →
    ratio < info.currentLeverageRatio → PartOutlasts morpho exchanges r.world info ratio
  | .iterateRebalance _ name => ∀ info, tradeInfo morpho r.world name = .ok info →
    r.world.extension.twapLeverageRatio < info.currentLeverageRatio →
    PartOutlasts morpho exchanges r.world info r.world.extension.twapLeverageRatio
  | .disengage _ name => r.world.extension.twapLeverageRatio ≠ 0 →
    ∀ info chunk total, tradeInfo morpho r.world name = .ok info →
    calculateChunkRebalanceNotional r.world.extension.execution info preciseUnit false =
      .ok (chunk, total) →
    chunk < total ∧ PartOutlasts morpho exchanges r.world info preciseUnit
  | .elsewhere _ world _ _ =>
    MorphoLeverageModule.owed morpho world = MorphoLeverageModule.owed morpho r.world.world
  | _ => True

variable {morpho exchanges} {w w₁ v : StrategyWorld μ} {c : Caller} {exchangeName : String}
  {e : Executed} {lastTrade : Option Executed}

/-! ### The debt after a call of the module -/

/-- A debt of nothing has no shares. -/
theorem createActionInfo_owed {info : ActionInfo} (h : createActionInfo w morpho = .ok info)
    (hdebt : info.borrowBalance = 0) : MorphoLeverageModule.owed morpho w.world = 0 := by
  simp only [createActionInfo, bind_eq_ok, pure_eq_ok] at h
  obtain ⟨_, _, _, _, ⟨_, _, _⟩, hbalances, _, _, rfl⟩ := h
  obtain ⟨_, hshares, hzero⟩ := MorphoLeverageModule.getCollateralAndBorrowBalances_eq hbalances
  exact hshares.symm.trans (hzero.mp hdebt)

section Debt
variable (hdebts : morpho.KeepsDebts)
include hdebts

theorem enter_owed (h : invokeManager morpho exchanges w .enterCollateralPosition = .ok v) :
    MorphoLeverageModule.owed morpho v.world = MorphoLeverageModule.owed morpho w.world := by
  obtain ⟨hsteady, _, hsupplied⟩ :=
    MorphoLeverageModule.enterCollateralPosition_effect (invokeManager_eq h).2
  exact hsupplied.supplyCollateral hdebts hsteady

/-- Whoever levers has a debt. -/
theorem lever_owed {x : StrategyExtension} {leverageInfo : LeverageInfo} {chunk : Nat}
    {call : ModuleCall} (hdata : leverCallData x leverageInfo chunk = .ok call)
    (h : invokeManager morpho exchanges w call = .ok v) :
    MorphoLeverageModule.owed morpho v.world ≠ 0 := by
  simp only [leverCallData, bind_eq_ok, pure_eq_ok] at hdata
  obtain ⟨_, _, _, _, _, _, rfl⟩ := hdata
  obtain ⟨_, _, _, hsteady₁, hsteady₂, hborrowed, hsupplied⟩ :=
    MorphoLeverageModule.lever_effect (invokeManager_eq h).2
  have hmore := hborrowed.borrow hdebts hsteady₁
  rw [hsupplied.supplyCollateral hdebts hsteady₂]
  omega

/-- A sale that the debt outlasts leaves some of it. -/
theorem delever_owed {x : StrategyExtension} {leverageInfo : LeverageInfo} {chunk : Nat}
    {call : ModuleCall} (hdata : deleverCallData x leverageInfo chunk = .ok call)
    (houtlasts : Outlasts morpho exchanges w call)
    (h : invokeManager morpho exchanges w call = .ok v) :
    MorphoLeverageModule.owed morpho v.world ≠ 0 := by
  simp only [deleverCallData, bind_eq_ok, pure_eq_ok] at hdata
  obtain ⟨_, _, _, _, rfl⟩ := hdata
  obtain ⟨_, _, _, _, hproceeds, hsteady₁, hsteady₂, hwithdrawn, hrepaid⟩ :=
    MorphoLeverageModule.delever_effect (invokeManager_eq h).2
  obtain ⟨hkept, market, hbefore, hafter⟩ := hwithdrawn.withdrawCollateral hdebts hsteady₁
  obtain ⟨market', hmarket', hburned⟩ := hrepaid.repayAssets hdebts hsteady₂
  obtain rfl : market = market' := Except.ok.inj (hafter.symm.trans hmarket')
  have hless := houtlasts _ _ _ hproceeds hbefore
  omega

/-- A chunk of a rebalance leaves a debt. -/
theorem handleRebalance_owed {leverageInfo : LeverageInfo} {ratio chunk total : Nat}
    {call : ModuleCall} (hpart : chunk < total)
    (houtlasts : ratio < leverageInfo.currentLeverageRatio →
      PartOutlasts morpho exchanges w leverageInfo ratio)
    (h : handleRebalance morpho exchanges w leverageInfo ratio = .ok (v, chunk, total, call)) :
    MorphoLeverageModule.owed morpho v.world ≠ 0 := by
  obtain ⟨hinvoke, hsale | hpurchase⟩ := handleRebalance_eq h
  · obtain ⟨hlower, hchunk, hdata⟩ := hsale
    exact delever_owed hdebts hdata (houtlasts hlower _ _ _ hchunk hpart hdata) hinvoke
  · obtain ⟨_, _, hdata⟩ := hpurchase
    exact lever_owed hdebts hdata hinvoke

/-! ### What each function leaves -/

theorem engage_live (h : Live morpho ⟨w, lastTrade⟩)
    (hv : engage morpho exchanges w c exchangeName = .ok (v, e)) : Live morpho ⟨v, some e⟩ := by
  obtain ⟨w₁, w₂, info, _, call, henter, hinfo, hdebt, hdata, hlever, _, rfl⟩ := engage_eq hv
  intro htwap
  dsimp only [updateRebalanceState] at htwap ⊢
  by_cases hpart : e.chunkRebalanceNotional < e.totalRebalanceNotional
  · rw [if_pos hpart]
    have howed := lever_owed hdebts hdata hlever
    exact ⟨howed, e, rfl, hpart⟩
  · -- A stored ratio would have come with a debt, and there is none.
    rw [if_neg hpart] at htwap
    have hstored : w.extension.twapLeverageRatio ≠ 0 := by
      rw [← (invokeManager_eq henter).1, ← (invokeManager_eq hlever).1]
      exact htwap
    have hnone := createActionInfo_owed hinfo hdebt
    rw [enter_owed hdebts henter] at hnone
    exact absurd hnone (h hstored).1

theorem rebalance_live {r : Recorded μ} (hC : Unclearing morpho exchanges r (.rebalance c exchangeName))
    (hv : rebalance morpho exchanges r.world c exchangeName = .ok (v, e)) :
    Live morpho ⟨v, some e⟩ := by
  obtain ⟨w₁, info, call, hinfo, _, hnone, hratio, hhandle, _, rfl⟩ := rebalance_eq hv
  intro htwap
  dsimp only [updateRebalanceState] at htwap ⊢
  by_cases hpart : e.chunkRebalanceNotional < e.totalRebalanceNotional
  · rw [if_pos hpart]
    have howed := handleRebalance_owed hdebts hpart (hC info _ hinfo hratio) hhandle
    exact ⟨howed, e, rfl, hpart⟩
  · rw [if_neg hpart] at htwap
    refine absurd ?_ htwap
    show w₁.extension.twapLeverageRatio = 0
    rw [(invokeManager_eq (handleRebalance_eq hhandle).1).1]
    exact hnone

theorem iterateRebalance_live {r : Recorded μ}
    (hC : Unclearing morpho exchanges r (.iterateRebalance c exchangeName))
    (hv : iterateRebalance morpho exchanges r.world c exchangeName = .ok (v, e)) :
    Live morpho ⟨v, ((some e).filter (·.trade.isSome)).or r.lastTrade⟩ := by
  obtain ⟨info, hinfo, _, _, hend⟩ := iterateRebalance_eq hv
  intro htwap
  cases hend with
  | inl htraded =>
    obtain ⟨w₁, call, hhandle, htrade, rfl⟩ := htraded
    dsimp only [updateIterateState] at htwap ⊢
    by_cases hwhole : e.chunkRebalanceNotional = e.totalRebalanceNotional
    · rw [if_pos hwhole] at htwap
      exact absurd rfl htwap
    · have hpart : e.chunkRebalanceNotional < e.totalRebalanceNotional := by
        obtain ⟨_, ⟨_, hchunk, _⟩ | ⟨_, hchunk, _⟩⟩ := handleRebalance_eq hhandle
        · exact lt_of_le_of_ne (chunk_le hchunk).1 hwhole
        · exact lt_of_le_of_ne (chunk_le hchunk).1 hwhole
      rw [if_neg hwhole]
      have howed := handleRebalance_owed hdebts hpart (hC info hinfo) hhandle
      refine ⟨howed, e, ?_, hpart⟩
      simp [Option.filter, htrade]
  | inr hended =>
    rw [hended.2] at htwap
    exact absurd rfl htwap

/-- The stored ratio is not touched, so the debt has to be left as well. -/
theorem disengage_live {r : Recorded μ}
    (hC : Unclearing morpho exchanges r (.disengage c exchangeName))
    (hv : disengage morpho exchanges r.world c exchangeName = .ok (v, e)) :
    Live morpho ⟨v, some e⟩ := by
  obtain ⟨info, call, hinfo, hchunk, hinvoke, _, hdata⟩ := disengage_eq hv
  intro htwap
  have hstored : r.world.extension.twapLeverageRatio ≠ 0 := by
    rw [← (invokeManager_eq hinvoke).1]
    exact htwap
  obtain ⟨hpart, houtlasts⟩ := hC hstored info _ _ hinfo hchunk
  have hcall := hdata hpart
  exact ⟨delever_owed hdebts hcall (houtlasts _ _ _ hchunk hpart hcall) hinvoke, e, rfl, hpart⟩

end Debt

/-- The stored ratio is cleared. -/
theorem ripcord_live {transferred : Nat}
    (hv : ripcord morpho exchanges w c exchangeName = .ok (v, e, transferred)) :
    Live morpho ⟨v, lastTrade⟩ := by
  obtain ⟨w₁, _, _, _, _, _, _, _, _, hextension, _⟩ := ripcord_eq hv
  intro htwap
  refine absurd ?_ htwap
  show v.extension.twapLeverageRatio = 0
  rw [hextension, updateRipcordState]
  split_ifs with hstored
  · rfl
  · exact Nat.eq_zero_of_not_pos hstored

/-- A call that neither trades nor writes the stored ratio, and leaves the debt. -/
theorem Live.of_same (h : Live morpho ⟨w, lastTrade⟩)
    (htwap : v.extension.twapLeverageRatio = w.extension.twapLeverageRatio)
    (howed : MorphoLeverageModule.owed morpho v.world = MorphoLeverageModule.owed morpho w.world) :
    Live morpho ⟨v, lastTrade⟩ := by
  intro hstored
  rw [howed]
  exact h fun hnone => hstored (htwap.trans hnone)

theorem Live.administered {executed : Option Executed} (h : Live morpho ⟨w, lastTrade⟩)
    (ha : Administered w v executed) :
    Live morpho ⟨v, (executed.filter (·.trade.isSome)).or lastTrade⟩ := by
  rw [ha.executed]
  exact h.of_same ha.twapLeverageRatio (congrArg _ ha.world)

theorem setSettings_live {f : StrategyExtension → StrategyExtension}
    (h : Live morpho ⟨w, lastTrade⟩) (hf : ∀ x, (f x).twapLeverageRatio = x.twapLeverageRatio)
    (hv : setSettings w c f = .ok v) : Live morpho ⟨v, lastTrade⟩ := by
  simp only [setSettings, bind_eq_ok, pure_eq_ok] at hv
  obtain ⟨_, _, _, _, _, _, rfl⟩ := hv
  exact h.of_same (hf w.extension) rfl

/-! ### Runs -/

theorem record_live {r t : Recorded μ} {a : Action μ} (hdebts : morpho.KeepsDebts)
    (h : Live morpho r) (hC : Unclearing morpho exchanges r a)
    (ht : record morpho exchanges r a = .ok t) : Live morpho t := by
  simp only [record, bind_eq_ok, pure_eq_ok] at ht
  obtain ⟨⟨v, executed⟩, hstep, rfl⟩ := ht
  have htraded {e : Executed} {call : ModuleCall} (htrade : e.trade = some call) :
      ((some e).filter (·.trade.isSome)).or r.lastTrade = some e := by
    simp [Option.filter, htrade]
  cases a with
  | engage c name =>
    simp only [step, bind_eq_ok, pure_eq_ok, Prod.mk.injEq] at hstep
    obtain ⟨⟨_, e⟩, hcall, rfl, rfl⟩ := hstep
    obtain ⟨_, _, _, _, _, _, _, _, _, _, htrade, _⟩ := engage_eq hcall
    rw [htraded htrade]
    exact engage_live hdebts h hcall
  | rebalance c name =>
    simp only [step, bind_eq_ok, pure_eq_ok, Prod.mk.injEq] at hstep
    obtain ⟨⟨_, e⟩, hcall, rfl, rfl⟩ := hstep
    obtain ⟨_, _, _, _, _, _, _, _, htrade, _⟩ := rebalance_eq hcall
    rw [htraded htrade]
    exact rebalance_live hdebts hC hcall
  | iterateRebalance c name =>
    simp only [step, bind_eq_ok, pure_eq_ok, Prod.mk.injEq] at hstep
    obtain ⟨⟨_, e⟩, hcall, rfl, rfl⟩ := hstep
    exact iterateRebalance_live hdebts hC hcall
  | ripcord c name =>
    simp only [step, bind_eq_ok, pure_eq_ok, Prod.mk.injEq] at hstep
    obtain ⟨⟨_, e, _⟩, hcall, rfl, rfl⟩ := hstep
    exact ripcord_live hcall
  | disengage c name =>
    simp only [step, bind_eq_ok, pure_eq_ok, Prod.mk.injEq] at hstep
    obtain ⟨⟨_, e⟩, hcall, rfl, rfl⟩ := hstep
    obtain ⟨_, _, _, _, _, htrade, _⟩ := disengage_eq hcall
    rw [htraded htrade]
    exact disengage_live hdebts hC hcall
  | setOverrideNoRebalanceInProgress c override => exact h.administered (step_administered hstep trivial)
  | setMethodologySettings c newSettings =>
    simp only [step, bind_eq_ok, pure_eq_ok, Prod.mk.injEq] at hstep
    obtain ⟨_, hcall, rfl, rfl⟩ := hstep
    refine setSettings_live h ?_ hcall
    exact fun _ => rfl
  | setExecutionSettings c newSettings =>
    simp only [step, bind_eq_ok, pure_eq_ok, Prod.mk.injEq] at hstep
    obtain ⟨_, hcall, rfl, rfl⟩ := hstep
    refine setSettings_live h ?_ hcall
    exact fun _ => rfl
  | setIncentiveSettings c newSettings =>
    simp only [step, bind_eq_ok, pure_eq_ok, Prod.mk.injEq] at hstep
    obtain ⟨_, hcall, rfl, rfl⟩ := hstep
    refine setSettings_live h ?_ hcall
    exact fun _ => rfl
  | addEnabledExchange c name settings => exact h.administered (step_administered hstep trivial)
  | removeEnabledExchange c name => exact h.administered (step_administered hstep trivial)
  | updateEnabledExchange c name settings => exact h.administered (step_administered hstep trivial)
  | withdrawEtherBalance c => exact h.administered (step_administered hstep trivial)
  | updateCallerStatus c callers statuses => exact h.administered (step_administered hstep trivial)
  | updateAnyoneCallable c status => exact h.administered (step_administered hstep trivial)
  | elsewhere manager world oraclePrice ether =>
    simp only [step, pure_eq_ok, Prod.mk.injEq] at hstep
    obtain ⟨rfl, rfl⟩ := hstep
    exact h.of_same rfl hC

/-- **When a rebalance is in progress.** In every state that a run from the deployment reaches
without clearing the debt during a rebalance, a stored ratio comes with a debt, and with a last
trade that left a part of its total. -/
theorem twap_live {self : Address} {strategy : ContractSettings}
    {methodology : MethodologySettings} {execution : ExecutionSettings}
    {incentive : IncentiveSettings} {names : List String} {settings : List ExchangeSettings}
    {actions : List (Action μ)} {r : Recorded μ} (hdebts : morpho.KeepsDebts)
    (hdeploy : deploy self strategy methodology execution incentive names settings = .ok w.extension)
    (hC : Along (record morpho exchanges) (Unclearing morpho exchanges) ⟨w, none⟩ actions)
    (hr : runs (record morpho exchanges) ⟨w, none⟩ actions = .ok r) : Live morpho r :=
  runs_induction_along (fun r _ => Live morpho r)
    (fun _ _ _ _ h hC ht => record_live hdebts h hC ht)
    (fun hstored => absurd (deploy_twap hdeploy) hstored) hC hr

/-! The operator engages in chunks and then disengages, in one trade or in more. -/

/-- A million units of collateral for the SetToken. -/
def fundedTokens : Tokens :=
  Function.update MorphoLeverageModule.exampleTokens 1
    ⟨fun account => if account = 100 then 10 ^ 24 else 10 ^ 30, fun _ _ => 10 ^ 30, 10 ^ 32⟩

def exampleFunded : Result (StrategyWorld Ledger) := do
  let w ← exampleStrategy 5000 0 0 0
  pure { w with world := { w.world with tokens := fundedTokens } }

theorem exampleFunded_deployed {w : StrategyWorld Ledger} (h : exampleFunded = .ok w) :
    deploy 40 ⟨50, 1, 2⟩ exampleMethodology exampleExecution exampleIncentive ["exchange", "other"]
      [⟨10 ^ 23, 0, 10 ^ 24, [], []⟩, ⟨10 ^ 23, 0, 0, [], []⟩] = .ok w.extension := by
  simp only [exampleFunded, bind_eq_ok, pure_eq_ok] at h
  obtain ⟨_, hw, rfl⟩ := h
  have hdeployed := exampleStrategy_deployed hw
  exact hdeployed

/-- Engages, and then sets the size of a trade. -/
def exampleEngaging (size : Nat) : List (Action Ledger) :=
  [.setMethodologySettings exampleOperator
      ⟨15 * 10 ^ 17, 12 * 10 ^ 17, 18 * 10 ^ 17, 5 * 10 ^ 16, 86400⟩,
    .engage exampleOperator "exchange",
    .updateEnabledExchange exampleOperator "exchange" ⟨size, 0, 10 ^ 24, [], []⟩]

def exampleDisengaging : List (Action Ledger) := [.disengage exampleOperator "exchange"]

theorem exampleEngaging_unclearing (size : Nat) (r : Recorded Ledger) :
    Along (record (accruing 0) MorphoLeverageModule.exampleExchange)
      (Unclearing (accruing 0) MorphoLeverageModule.exampleExchange) r (exampleEngaging size) :=
  along_of_forall (by simp [exampleEngaging, Unclearing]) r

/-- A part of the debt is repaid while the rebalance goes on. -/
theorem twap_live_example : ∃ w r, exampleFunded = .ok w ∧
    runs (record (accruing 0) MorphoLeverageModule.exampleExchange) ⟨w, none⟩
      (exampleEngaging (10 ^ 22) ++ exampleDisengaging) = .ok r ∧
    r.world.extension.twapLeverageRatio = 15 * 10 ^ 17 ∧ Live (accruing 0) r := by
  have h : (do
      let w ← exampleFunded
      let r ← runs (record (accruing 0) MorphoLeverageModule.exampleExchange) ⟨w, none⟩
        (exampleEngaging (10 ^ 22))
      let info ← tradeInfo (accruing 0) r.world "exchange"
      let sized ← calculateChunkRebalanceNotional r.world.extension.execution info
        preciseUnit false
      let call ← deleverCallData r.world.extension info sized.1
      require (sized.1 < sized.2 ∧ call = ModuleCall.delever (10 ^ 16) (98 * 10 ^ 14) "exchange" []) ""
      let proceeds ← MorphoLeverageModule.deleverProceeds (accruing 0)
        r.world.extension.strategy.leverageModule MorphoLeverageModule.exampleExchange r.world.world
        (10 ^ 16) (98 * 10 ^ 14) "exchange" []
      let market ← (accruing 0).accruedMarket r.world.world.rest.others.morpho (timestamp r.world)
        (MorphoLeverageModule.params r.world.world)
      require (SharesMath.sharesOf proceeds.2 market.totalBorrowAssets market.totalBorrowShares <
        MorphoLeverageModule.owed (accruing 0) r.world.world) ""
      let r ← runs (record (accruing 0) MorphoLeverageModule.exampleExchange) r exampleDisengaging
      require (r.world.extension.twapLeverageRatio = 15 * 10 ^ 17) "") = .ok () := by
    decide +kernel
  simp only [bind_eq_ok, require_eq_ok] at h
  obtain ⟨w, hw, r, hr, info, hinfo, ⟨chunk, total⟩, hchunk, call, hcall, ⟨⟩, ⟨hpart, rfl⟩,
    ⟨x, repaid⟩, hproceeds, market, hmarket, ⟨⟩, hless, v, hv, hstored⟩ := h
  have hunclearing : Along (record (accruing 0) MorphoLeverageModule.exampleExchange)
      (Unclearing (accruing 0) MorphoLeverageModule.exampleExchange) ⟨w, none⟩
      (exampleEngaging (10 ^ 22) ++ exampleDisengaging) := by
    refine along_append (exampleEngaging_unclearing _ _) fun t ht => ⟨?_, fun _ _ => trivial⟩
    obtain rfl : r = t := Except.ok.inj (hr.symm.trans ht)
    intro _ info' chunk' total' hinfo' hchunk'
    obtain rfl : info = info' := Except.ok.inj (hinfo.symm.trans hinfo')
    cases Except.ok.inj (hchunk.symm.trans hchunk')
    refine ⟨hpart, fun chunk' total' call' hchunk' _ hcall' => ?_⟩
    cases Except.ok.inj (hchunk.symm.trans hchunk')
    cases Except.ok.inj (hcall.symm.trans hcall')
    intro x' repaid' market' hproceeds' hmarket'
    cases Except.ok.inj (hproceeds.symm.trans hproceeds')
    cases Except.ok.inj (hmarket.symm.trans hmarket')
    exact hless
  have hrun := runs_append hr hv
  exact ⟨w, v, hw, hrun, hstored, twap_live (accruing_keepsDebts 0) (exampleFunded_deployed hw)
    hunclearing hrun⟩

/-- The debt is cleared in one trade and the ratio stays, also when the strategy engages anew
without chunks; from then on `rebalance` is refused. -/
theorem twap_stale : ∃ w r v, exampleFunded = .ok w ∧
    runs (record (accruing 0) MorphoLeverageModule.exampleExchange) ⟨w, none⟩
      (exampleEngaging (10 ^ 40) ++ exampleDisengaging) = .ok r ∧
    MorphoLeverageModule.owed (accruing 0) r.world.world = 0 ∧
    r.world.extension.twapLeverageRatio = 15 * 10 ^ 17 ∧
    runs (record (accruing 0) MorphoLeverageModule.exampleExchange) r
      [.elsewhere r.world.manager { r.world.world with tokens := fundedTokens } r.world.oraclePrice
        r.world.ether, .engage exampleOperator "exchange"] = .ok v ∧
    (∃ e, v.lastTrade = some e ∧ e.chunkRebalanceNotional = e.totalRebalanceNotional) ∧
    v.world.extension.twapLeverageRatio = 15 * 10 ^ 17 ∧
    validateNonTWAP v.world = .error "Must call iterate" := by
  have h : (do
      let w ← exampleFunded
      let r ← runs (record (accruing 0) MorphoLeverageModule.exampleExchange) ⟨w, none⟩
        (exampleEngaging (10 ^ 40) ++ exampleDisengaging)
      require (MorphoLeverageModule.owed (accruing 0) r.world.world = 0 ∧
        r.world.extension.twapLeverageRatio = 15 * 10 ^ 17) ""
      let v ← runs (record (accruing 0) MorphoLeverageModule.exampleExchange) r
        [Action.elsewhere r.world.manager { r.world.world with tokens := fundedTokens }
          r.world.oraclePrice r.world.ether, .engage exampleOperator "exchange"]
      require ((v.lastTrade.map fun e : Executed =>
          decide (e.chunkRebalanceNotional = e.totalRebalanceNotional)) = some true ∧
        v.world.extension.twapLeverageRatio = 15 * 10 ^ 17 ∧
        validateNonTWAP v.world = Except.error "Must call iterate") "") = .ok () := by
    decide +kernel
  simp only [bind_eq_ok, require_eq_ok] at h
  obtain ⟨w, hw, r, hr, ⟨⟩, ⟨howed, hstored⟩, v, hv, hlast, hstored', hrefused⟩ := h
  obtain ⟨e, he, hwhole⟩ := Option.map_eq_some_iff.mp hlast
  exact ⟨w, r, v, hw, hr, howed, hstored, hv, ⟨e, he, of_decide_eq_true hwhole⟩, hstored', hrefused⟩

end MorphoLeverageStrategyExtension

end IndexProtocol
