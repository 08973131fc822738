import IndexProtocol.Leverage.Hooks

/-! Removing the module from a SetToken.

The module writes its positions in the two tokens of its market only, and while
it is initialized; every other call leaves them as they are. So in every run the
module is listed at most with its current market, as long as no removal leaves it
behind. A removal syncs and forgets the market; it leaves nothing behind exactly
where the sync closes both positions. -/
namespace IndexProtocol
open Evm PreciseUnitMath ModuleBase Morpho

/-! ### Calls that spare the positions of a module -/

namespace SetToken
variable {s t : SetToken} {module : Address}

/-- Modules edit positions of their own only. -/
def Edit.spares (module : Address) : Edit → Bool
  | .editExternalPosition _ _ positionModule _ _ => positionModule != module
  | _ => true

/-- The module is initialized and removed by its own functions. -/
def Call.spares (module : Address) : Call → Bool
  | .edit e => e.spares module
  | .removeModule _ removed edits => removed != module && edits.all (Edit.spares module)
  | .initializeModule sender => sender != module
  | _ => true

/-- Well-formedness, and where the module is listed at most. -/
structure Spared (module : Address) (s t : SetToken) : Prop where
  wellFormed : t.WellFormed
  listed : ∀ c, module ∈ t.externalPositionModules c → module ∈ s.externalPositionModules c
  initialized : s.moduleStates module = .initialized → t.moduleStates module = .initialized

theorem Spared.trans {u : SetToken} (h : Spared module s t) (h' : Spared module t u) :
    Spared module s u :=
  ⟨h'.wellFormed, fun c hc => h.listed c (h'.listed c hc), fun hs => h'.initialized (h.initialized hs)⟩

theorem Spared.of_same (h : s.WellFormed) (hsame : s.SamePositions t)
    (hstates : s.moduleStates module = .initialized → t.moduleStates module = .initialized) :
    Spared module s t := by
  refine ⟨h.of_same hsame, fun c hc => ?_, hstates⟩
  rwa [externalPositionModules, hsame.componentPositions] at hc

theorem editDefaultPosition_spared {sender component : Address} {newUnit : Nat} (h : s.WellFormed)
    (he : Position.editDefaultPosition s sender component newUnit = .ok t) : Spared module s t := by
  have hwf := editDefaultPosition_wellFormed h he
  obtain ⟨l, unit, _, _, rfl, _⟩ := editDefaultPosition_eq h he
  refine ⟨hwf, fun c hc => ?_, id⟩
  rwa [setDefaultUnit_modules, withComponents_modules] at hc

theorem edit_spared {e : Edit} (h : s.WellFormed) (hspares : e.spares module = true)
    (he : s.edit e = .ok t) : Spared module s t := by
  cases e with
  | editDefaultPosition sender component newUnit => exact editDefaultPosition_spared h he
  | editExternalPosition sender component positionModule newUnit data =>
    have hne : positionModule ≠ module := bne_iff_ne.mp hspares
    have hwf := editExternalPosition_wellFormed h he
    obtain ⟨_, _, rfl⟩ | ⟨l, mods, unit, _, _, rfl, _⟩ := editExternalPosition_eq h he
    · exact ⟨h, fun _ hc => hc, id⟩
    · refine ⟨hwf, fun c hc => ?_, id⟩
      rw [hwf.mem_externalPositionModules, externalPositionVirtualUnit,
        setExternalPosition_position_of_ne mods _ fun hcm => hne hcm.2.symm] at hc
      exact h.mem_externalPositionModules.mpr hc
  | editPositionMultiplier sender newMultiplier =>
    have hwf := editPositionMultiplier_wellFormed h he
    obtain ⟨_, _, rfl⟩ := editPositionMultiplier_eq_ok.mp he
    exact ⟨hwf, fun _ hc => hc, id⟩

theorem edits_spared {edits : List Edit} (h : s.WellFormed)
    (hspares : edits.all (Edit.spares module) = true) (he : runs edit s edits = .ok t) :
    Spared module s t := by
  refine (runs_induction (fun u rest => Spared module s u ∧ rest.all (Edit.spares module) = true) ?_
    ⟨⟨h, fun _ hc => hc, id⟩, hspares⟩ he).1
  intro u e rest u' hu hstep
  have hall := hu.2
  rw [List.all_cons, Bool.and_eq_true] at hall
  exact ⟨hu.1.trans (edit_spared hu.1.wellFormed hall.1 hstep), hall.2⟩

theorem setModuleState_initialized {other : Address} {state : ModuleState} (hne : module ≠ other) :
    s.moduleStates module = .initialized →
      (s.setModuleState other state).moduleStates module = .initialized := by
  intro hs
  exact (Function.update_of_ne hne _ _).trans hs

/-- One call by others keeps the positions of the module. -/
theorem call_spared {a : Call} (h : s.WellFormed) (hspares : a.spares module = true)
    (ha : s.call a = .ok t) : Spared module s t := by
  cases a with
  | edit e => exact edit_spared h hspares ha
  | mint sender account quantity =>
    have hsame := mint_same ha
    obtain ⟨_, _, _, rfl⟩ := mint_eq_ok.mp ha
    exact .of_same h hsame id
  | burn sender account quantity =>
    have hsame := burn_same ha
    obtain ⟨_, _, _, rfl⟩ := burn_eq_ok.mp ha
    exact .of_same h hsame id
  | lock sender =>
    simp only [call, lock, bind_eq_ok, pure_eq_ok] at ha
    obtain ⟨_, _, _, _, rfl⟩ := ha
    exact .of_same h ⟨rfl, rfl, rfl, rfl⟩ id
  | unlock sender =>
    simp only [call, unlock, bind_eq_ok, pure_eq_ok] at ha
    obtain ⟨_, _, _, _, _, _, rfl⟩ := ha
    exact .of_same h ⟨rfl, rfl, rfl, rfl⟩ id
  | addModule sender added =>
    simp only [call, addModule, bind_eq_ok, require_eq_ok, exists_const, pure_eq_ok] at ha
    obtain ⟨_, _, hnone, _, rfl⟩ := ha
    refine .of_same h ⟨rfl, rfl, rfl, rfl⟩ fun hs => setModuleState_initialized ?_ hs
    rintro rfl
    rw [hs] at hnone
    cases hnone
  | removeModule sender removed edits =>
    obtain ⟨hne, hall⟩ := Bool.and_eq_true_iff.mp hspares
    simp only [call, removeModule, finishRemoveModule, bind_eq_ok, pure_eq_ok] at ha
    obtain ⟨_, _, s₁, hedits, _, _, rfl⟩ := ha
    have hspared := edits_spared h hall hedits
    exact hspared.trans (.of_same hspared.wellFormed ⟨rfl, rfl, rfl, rfl⟩
      (setModuleState_initialized (bne_iff_ne.mp hne).symm))
  | removePendingModule sender removed =>
    simp only [call, removePendingModule, bind_eq_ok, require_eq_ok, exists_const, pure_eq_ok] at ha
    obtain ⟨_, _, _, hpending, rfl⟩ := ha
    refine .of_same h ⟨rfl, rfl, rfl, rfl⟩ fun hs => setModuleState_initialized ?_ hs
    rintro rfl
    rw [hs] at hpending
    cases hpending
  | initializeModule sender =>
    simp only [call, initializeModule, bind_eq_ok, pure_eq_ok] at ha
    obtain ⟨_, _, _, _, rfl⟩ := ha
    exact .of_same h ⟨rfl, rfl, rfl, rfl⟩ (setModuleState_initialized (bne_iff_ne.mp hspares).symm)
  | setManager sender manager =>
    simp only [call, setManager, bind_eq_ok, pure_eq_ok] at ha
    obtain ⟨_, _, _, _, rfl⟩ := ha
    exact .of_same h ⟨rfl, rfl, rfl, rfl⟩ id
  | changeController controller =>
    obtain rfl : { s with controller := controller } = t := by simpa [call] using ha
    exact .of_same h ⟨rfl, rfl, rfl, rfl⟩ id

end SetToken

namespace MorphoLeverageModule
variable {μ : Type} {morpho : MorphoBlue μ} {module issuance : Address}
  {exchanges : Address → ExchangeAdapter} {w v : LeverageWorld μ}

/-! ### What the module itself writes -/

/-- A call of the initialized module: it is listed newly with its market's tokens only. -/
structure Confined (module : Address) (w v : LeverageWorld μ) : Prop where
  params : params v = params w
  states : v.setToken.moduleStates = w.setToken.moduleStates
  wellFormed : v.setToken.WellFormed
  listed : ∀ c, module ∈ v.setToken.externalPositionModules c →
    module ∈ w.setToken.externalPositionModules c ∨
      IsMarketToken w c ∧ w.setToken.moduleStates module = .initialized

theorem Confined.trans {u : LeverageWorld μ} (h : Confined module w v) (h' : Confined module v u) :
    Confined module w u := by
  refine ⟨h'.params.trans h.params, h'.states.trans h.states, h'.wellFormed, fun c hc => ?_⟩
  rcases h'.listed c hc with hv | ⟨hmarket, hstate⟩
  · exact h.listed c hv
  · rw [IsMarketToken, h.params] at hmarket
    rw [h.states] at hstate
    exact .inr ⟨hmarket, hstate⟩

theorem Kept.confined (h : Kept w v) (hwf : w.setToken.WellFormed) : Confined module w v := by
  refine ⟨h.params, ?_, ?_, fun c hc => .inl ?_⟩
  · rw [h.setToken]
  · rw [h.setToken]
    exact hwf
  · rwa [h.setToken] at hc

/-- A written position was written by an initialized module. -/
theorem syncPosition_privileged {s t : SetToken} {component : Address} {unit : Int}
    (hwf : s.WellFormed) (h : syncPosition module s component unit = .ok t) :
    t = s ∨ s.Privileged module := by
  simp only [syncPosition, bind_eq_ok] at h
  obtain ⟨_, _, h⟩ := h
  split_ifs at h
  · obtain ⟨_, _, rfl⟩ | ⟨_, _, _, _, hprivileged, _⟩ := SetToken.editExternalPosition_eq hwf h
    · exact .inl rfl
    · exact .inr hprivileged
  · exact .inl (pure_eq_ok.mp h).symm

theorem syncPositions_confined (hwf : w.setToken.WellFormed)
    (h : syncPositions morpho module w = .ok v) : Confined module w v := by
  obtain ⟨hwf', honly, hparams, _, _, hexternal⟩ := syncPositions_frame hwf h
  have hstates : v.setToken.moduleStates = w.setToken.moduleStates :=
    (congrArg SetToken.moduleStates honly).symm
  refine ⟨hparams, hstates, hwf', fun c hc => ?_⟩
  by_cases hmarket : IsMarketToken w c
  · obtain ⟨_, _, s₁, _, hcollateral, hloan, _⟩ := syncPositions_eq h
    rcases syncPosition_privileged hwf hcollateral with rfl | hprivileged
    · rcases syncPosition_privileged hwf hloan with hsame | hprivileged
      · rw [hsame] at hc
        exact .inl hc
      · exact .inr ⟨hmarket, hprivileged.initialized⟩
    · exact .inr ⟨hmarket, hprivileged.initialized⟩
  · left
    rw [hwf'.mem_externalPositionModules, SetToken.externalPositionVirtualUnit,
      hexternal c module fun hcm => hmarket hcm.2] at hc
    exact hwf.mem_externalPositionModules.mpr hc

theorem editDefault_confined {sender component : Address} {unit : Nat} (hwf : w.setToken.WellFormed)
    (h : w.callSetToken (Position.editDefaultPosition · sender component unit) = .ok v) :
    Confined module w v := by
  obtain ⟨s, hs, rfl⟩ := World.callSetToken_eq_ok.mp h
  have hspared : SetToken.Spared module w.setToken s := SetToken.editDefaultPosition_spared hwf hs
  have honly := SetToken.editDefaultPosition_only hs
  exact ⟨rfl, (congrArg SetToken.moduleStates honly).symm, hspared.wellFormed,
    fun c hc => .inl (hspared.listed c hc)⟩

theorem sameBut_kept {token : Address} (h : w.SameBut v token) : Kept w v := by
  refine ⟨h.setToken, ?_⟩
  rw [params, params, h.rest]

theorem executeTrade_kept {actionInfo : ActionInfo} {sendToken receiveToken : Address}
    {data : List UInt8} {received : Nat}
    (h : executeTrade module exchanges w actionInfo sendToken receiveToken data = .ok (v, received)) :
    Kept w v := by
  simp only [executeTrade, World.invoke, bind_eq_ok, pure_eq_ok, Prod.mk.injEq] at h
  obtain ⟨w₁, happrove, _, ⟨_, _, _, _, rfl⟩, _, _, _, _, rfl, _⟩ := h
  obtain ⟨hkept, _⟩ := invokeApprove_kept happrove
  exact ⟨hkept.setToken, hkept.params⟩

theorem accrueProtocolFee_kept {receiveToken : Address} {quantity fee : Nat}
    (h : accrueProtocolFee module w receiveToken quantity = .ok (v, fee)) : Kept w v := by
  simp only [accrueProtocolFee, bind_eq_ok, pure_eq_ok, Prod.mk.injEq] at h
  obtain ⟨_, _, _, htransfer, rfl, _⟩ := h
  exact sameBut_kept (World.strictInvokeTransfer_balance htransfer).1

theorem updateRepayDefaultPosition_confined {actionInfo : ActionInfo} {repayAsset : Address}
    (hwf : w.setToken.WellFormed)
    (h : updateRepayDefaultPosition module w actionInfo repayAsset = .ok v) :
    Confined module w v := by
  simp only [updateRepayDefaultPosition] at h
  split_ifs at h
  · obtain ⟨s, hs, rfl⟩ := World.callSetToken_eq_ok.mp h
    simp only [Position.calculateAndEditDefaultPosition, bind_eq_ok] at hs
    obtain ⟨_, _, _, _, _, _, hs⟩ := hs
    exact editDefault_confined hwf (World.callSetToken_eq_ok.mpr ⟨s, hs, rfl⟩)
  · obtain rfl : w = v := by simpa using h
    exact (Kept.refl w).confined hwf

/-! ### The operations of the module -/

section Operations
variable (hwf : w.setToken.WellFormed) {sender : Address} {units minUnits : Nat} {adapter : String}
  {data : List UInt8}
include hwf

theorem sync_confined (h : sync morpho module w = .ok v) : Confined module w v :=
  syncPositions_confined hwf (sync_eq h).2

theorem lever_confined
    (h : lever morpho module exchanges w sender units minUnits adapter data = .ok v) :
    Confined module w v := by
  simp only [lever, bind_eq_ok] at h
  obtain ⟨_, _, _, _, w₁, hborrow, ⟨w₂, _⟩, htrade, ⟨w₃, _⟩, hfee, _, _, w₄, hdeposit, hsync⟩ := h
  have hkept : Kept w w₄ := ((borrow_kept hborrow).trans (executeTrade_kept htrade)).trans
    ((accrueProtocolFee_kept hfee).trans (deposit_kept hdeposit))
  have hconfined : Confined module w _ := hkept.confined hwf
  exact hconfined.trans (syncPositions_confined hconfined.wellFormed hsync)

theorem delever_confined
    (h : delever morpho module exchanges w sender units minUnits adapter data = .ok v) :
    Confined module w v := by
  simp only [delever, bind_eq_ok] at h
  obtain ⟨_, _, _, _, w₁, hwithdraw, ⟨w₂, _⟩, htrade, ⟨w₃, _⟩, hfee, _, _, w₄, hrepay, w₅, hupdate,
    hsync⟩ := h
  have hkept : Kept w w₄ := ((withdraw_kept hwithdraw).trans (executeTrade_kept htrade)).trans
    ((accrueProtocolFee_kept hfee).trans (repayBorrow_kept hrepay))
  have hconfined : Confined module w _ := hkept.confined hwf
  have hupdated := hconfined.trans (updateRepayDefaultPosition_confined hconfined.wellFormed hupdate)
  exact hupdated.trans (syncPositions_confined hupdated.wellFormed hsync)

theorem deleverToZeroBorrowBalance_confined
    (h : deleverToZeroBorrowBalance morpho module exchanges w sender units adapter data = .ok v) :
    Confined module w v := by
  simp only [deleverToZeroBorrowBalance, bind_eq_ok] at h
  obtain ⟨_, _, _, _, _, _, _, _, w₁, hwithdraw, ⟨w₂, _⟩, htrade, w₃, hrepay, w₄, hupdate, hsync⟩ := h
  have hkept : Kept w w₃ :=
    ((withdraw_kept hwithdraw).trans (executeTrade_kept htrade)).trans (repayBorrow_kept hrepay)
  have hconfined : Confined module w _ := hkept.confined hwf
  have hupdated := hconfined.trans (updateRepayDefaultPosition_confined hconfined.wellFormed hupdate)
  exact hupdated.trans (syncPositions_confined hupdated.wellFormed hsync)

theorem enterCollateralPosition_confined
    (h : enterCollateralPosition morpho module w sender = .ok v) : Confined module w v := by
  simp only [enterCollateralPosition, bind_eq_ok] at h
  obtain ⟨_, _, _, _, w₁, hdeposit, w₂, hedit, hsync⟩ := h
  have hconfined : Confined module w w₁ := (deposit_kept hdeposit).confined hwf
  have hedited := hconfined.trans (editDefault_confined hconfined.wellFormed hedit)
  exact hedited.trans (sync_confined hedited.wellFormed hsync)

theorem componentIssueHook_confined {caller component : Address} {quantity : Nat} {isEquity : Bool}
    (h : componentIssueHook morpho module caller w quantity component isEquity = .ok v) :
    Confined module w v := by
  refine Kept.confined ?_ hwf
  simp only [componentIssueHook, bind_eq_ok] at h
  obtain ⟨_, _, h⟩ := h
  split_ifs at h
  · simp only [bind_eq_ok] at h
    obtain ⟨_, _, hdeposit⟩ := h
    exact deposit_kept hdeposit
  · obtain rfl := pure_eq_ok.mp h
    exact .refl w
  · simp only [bind_eq_ok] at h
    obtain ⟨_, _, _, _, hborrow⟩ := h
    exact borrow_kept hborrow

theorem componentRedeemHook_confined {caller component : Address} {quantity : Nat} {isEquity : Bool}
    (h : componentRedeemHook morpho module caller w quantity component isEquity = .ok v) :
    Confined module w v := by
  refine Kept.confined ?_ hwf
  simp only [componentRedeemHook, bind_eq_ok] at h
  obtain ⟨_, _, h⟩ := h
  split_ifs at h
  · simp only [bind_eq_ok] at h
    obtain ⟨_, _, hwithdraw⟩ := h
    exact withdraw_kept hwithdraw
  · obtain rfl := pure_eq_ok.mp h
    exact .refl w
  · simp only [bind_eq_ok] at h
    obtain ⟨_, _, _, _, hrepay⟩ := h
    exact repayBorrow_kept hrepay

theorem registerToModule_confined (h : registerToModule module issuance w sender = .ok v) :
    Confined module w v := by
  refine Kept.confined ?_ hwf
  simp only [registerToModule, DebtIssuanceModule.registerToIssuanceModule, bind_eq_ok,
    pure_eq_ok] at h
  obtain ⟨_, _, _, _, _, _, _, _, rfl⟩ := h
  exact ⟨rfl, rfl⟩

end Operations

/-! ### Removal -/

/-- The position of the SetToken on its market. -/
def marketPosition (morpho : MorphoBlue μ) (w : LeverageWorld μ) (p : MarketParams) : Position :=
  morpho.position w.rest.others.morpho (morpho.id p) w.setToken.self

/-- Nothing of the position is left: nothing is owed, and no component lists the module. -/
structure Clean (morpho : MorphoBlue μ) (module : Address) (p : MarketParams)
    (w : LeverageWorld μ) : Prop where
  debt : (marketPosition morpho w p).borrowShares = 0
  unlisted : ∀ c, module ∉ w.setToken.externalPositionModules c

/-- Nothing is owed, and the collateral of one share rounds to nothing. -/
def Closable (morpho : MorphoBlue μ) (w : LeverageWorld μ) : Prop :=
  (marketPosition morpho w (params w)).borrowShares = 0 ∧
    (w.setToken.totalSupply = 0 ∨ (params w).collateralToken = (params w).loanToken ∨
      (marketPosition morpho w (params w)).collateral * preciseUnit < w.setToken.totalSupply)

theorem unregister_same (h : DebtIssuanceModule.unregisterFromIssuanceModule issuance w module = .ok v) :
    v.setToken = w.setToken ∧ v.rest.others = w.rest.others := by
  simp only [DebtIssuanceModule.unregisterFromIssuanceModule, bind_eq_ok, pure_eq_ok] at h
  obtain ⟨_, _, _, _, _, _, rfl⟩ := h
  exact ⟨rfl, rfl⟩

theorem register_same (h : DebtIssuanceModule.registerToIssuanceModule issuance w module = .ok v) :
    v.setToken = w.setToken ∧ v.rest.others = w.rest.others := by
  simp only [DebtIssuanceModule.registerToIssuanceModule, bind_eq_ok, pure_eq_ok] at h
  obtain ⟨_, _, _, _, rfl⟩ := h
  exact ⟨rfl, rfl⟩

/-- A call that is tried where the issuance module is there, and may fail. -/
theorem tryCall_same {p : Prop} [Decidable p] {call : LeverageWorld μ → Result (LeverageWorld μ)}
    (h : ∀ v, call w = .ok v → v.setToken = w.setToken ∧ v.rest.others = w.rest.others)
    (hv : (if p then tryCall w call else w) = v) :
    v.setToken = w.setToken ∧ v.rest.others = w.rest.others := by
  subst hv
  split_ifs
  · unfold tryCall
    cases hcall : call w with
    | ok v => exact h v hcall
    | error reason => exact ⟨rfl, rfl⟩
  · exact ⟨rfl, rfl⟩

/-- A removal is a sync; then the market is forgotten and the module taken off the SetToken. -/
theorem removeFromSet_eq {sender : Address}
    (h : removeFromSet morpho module issuance w sender = .ok v) :
    ∃ u, syncPositions morpho module w = .ok u ∧ u.setToken.SamePositions v.setToken ∧
      v.rest.others.morpho = w.rest.others.morpho := by
  simp only [removeFromSet, removeModule, bind_eq_ok, pure_eq_ok] at h
  obtain ⟨_, _, w₁, ⟨_, _, u, hsync, hw₁⟩, hfinish⟩ := h
  have hpositions := (sync_eq hsync).2
  obtain ⟨_, _, _, _, _, _, hu⟩ := syncPositions_eq hpositions
  obtain ⟨hset, hothers⟩ := tryCall_same (fun _ => unregister_same) hw₁
  obtain ⟨s, hs, rfl⟩ := World.callSetToken_eq_ok.mp hfinish
  simp only [SetToken.finishRemoveModule, bind_eq_ok, pure_eq_ok] at hs
  obtain ⟨_, _, rfl⟩ := hs
  refine ⟨u, hpositions, ?_, ?_⟩
  · rw [hset]
    exact ⟨rfl, rfl, rfl, rfl⟩
  · change w₁.rest.others.morpho = _
    rw [hothers, hu]
    rfl

/-- A unit other than zero that was synced is there. -/
theorem Synced.listed {s : SetToken} {component : Address} {unit : Int}
    (h : Synced module s component unit) (hwf : s.WellFormed) (hunit : unit ≠ 0) :
    module ∈ s.externalPositionModules component := by
  rw [hwf.mem_externalPositionModules]
  rcases h with hread | ⟨_, _, virtualUnit, hconvert, hwritten⟩
  · obtain ⟨_, rfl⟩ := SetToken.getExternalPositionRealUnit_eq_ok.mp hread
    exact hwf.external_ne_zero_iff.mpr hunit
  · obtain ⟨hpos, _, hneg, _⟩ := SetToken.convertRealToVirtualUnit_sign hwf.multiplier_pos hconvert
    rw [SetToken.externalPositionVirtualUnit, hwritten]
    rcases lt_or_gt_of_ne hunit with hunit | hunit
    · exact (hneg hunit).ne
    · exact (hpos hunit).ne'

/-- After a sync a token of the market is listed exactly where its unit is not zero. -/
theorem Synced.listed_iff {s : SetToken} {component : Address} {unit : Int}
    (h : Synced module s component unit) (hwf : s.WellFormed) :
    module ∈ s.externalPositionModules component ↔ unit ≠ 0 := by
  refine ⟨?_, h.listed hwf⟩
  rintro hmem rfl
  exact (h.eq_zero hwf).2 hmem

theorem getCollateralAndBorrowBalances_eq {p : MarketParams} {collateral debt shares : Nat}
    (h : getCollateralAndBorrowBalances morpho w p = .ok (collateral, debt, shares)) :
    collateral = (marketPosition morpho w p).collateral ∧
      shares = (marketPosition morpho w p).borrowShares ∧ (debt = 0 ↔ shares = 0) := by
  simp only [getCollateralAndBorrowBalances, bind_eq_ok, pure_eq_ok, Prod.mk.injEq] at h
  obtain ⟨_, _, _, hdebt, rfl, rfl, rfl⟩ := h
  exact ⟨rfl, rfl, SharesMath.toAssetsUp_eq_zero hdebt⟩

/-- Where the module is listed after a sync. -/
theorem syncPositions_listed (hwf : w.setToken.WellFormed)
    (h : syncPositions morpho module w = .ok v) :
    (module ∈ v.setToken.externalPositionModules (params w).loanToken ↔
      0 < w.setToken.totalSupply ∧ (marketPosition morpho w (params w)).borrowShares ≠ 0) ∧
    ((params w).collateralToken ≠ (params w).loanToken →
      (module ∈ v.setToken.externalPositionModules (params w).collateralToken ↔
        0 < w.setToken.totalSupply ∧ w.setToken.totalSupply ≤
          (marketPosition morpho w (params w)).collateral * preciseUnit)) := by
  obtain ⟨hwf', _, _, ⟨units, hunits, hcollateral, hdebt⟩, _⟩ := syncPositions_frame hwf h
  rcases Nat.eq_zero_or_pos w.setToken.totalSupply with hsupply | hsupply
  · rw [getCollateralAndBorrowPositions, if_pos hsupply, pure_eq_ok] at hunits
    subst hunits
    refine ⟨?_, fun hne => ?_⟩
    · rw [hdebt.listed_iff hwf']
      omega
    · rw [(hcollateral hne).listed_iff hwf']
      omega
  · rw [getCollateralAndBorrowPositions, if_neg hsupply.ne', bind_eq_ok] at hunits
    obtain ⟨⟨collateral, debt, shares⟩, hbalances, hunits⟩ := hunits
    obtain ⟨rfl, rfl, hzero⟩ := getCollateralAndBorrowBalances_eq hbalances
    obtain ⟨_, hc, hd⟩ := positionUnits_eq_ok hunits
    rw [hc] at hcollateral
    rw [hd] at hdebt
    refine ⟨?_, fun hne => ?_⟩
    · rw [hdebt.listed_iff hwf']
      have hceil : debt * preciseUnit ⌈/⌉ w.setToken.totalSupply = 0 ↔ debt = 0 := by
        refine ⟨fun hceil => ?_, ?_⟩
        · by_contra hpos
          have hproduct : 0 < debt * preciseUnit := Nat.mul_pos (by omega) preciseUnit_pos
          exact (Rounding.ceil_pos hproduct hsupply).ne' hceil
        · rintro rfl
          rw [Nat.zero_mul, zero_ceilDiv]
      omega
    · rw [(hcollateral hne).listed_iff hwf', and_iff_right hsupply, Nat.cast_ne_zero,
        ← Nat.pos_iff_ne_zero, Nat.div_pos_iff, and_iff_right hsupply]

/-- **What a removal leaves.** Where the module is listed with its market only, the removal leaves
nothing exactly if nothing is owed and the collateral of one share rounds to nothing. -/
theorem removal_clean_iff {sender : Address} (hwf : w.setToken.WellFormed)
    (hlisted : ∀ c, module ∈ w.setToken.externalPositionModules c → IsMarketToken w c)
    (h : removeFromSet morpho module issuance w sender = .ok v) :
    Clean morpho module (params w) v ↔ Closable morpho w := by
  obtain ⟨u, hsync, hsame, hmorpho⟩ := removeFromSet_eq h
  obtain ⟨hloan, hcollateral⟩ := syncPositions_listed hwf hsync
  obtain ⟨hwf', honly, _, _, _, hexternal⟩ := syncPositions_frame hwf hsync
  have hposition : marketPosition morpho v (params w) = marketPosition morpho w (params w) := by
    rw [marketPosition, marketPosition, hmorpho, hsame.self, honly.self]
  have hmodules (c : Address) : v.setToken.externalPositionModules c =
      u.setToken.externalPositionModules c := by
    rw [SetToken.externalPositionModules, SetToken.externalPositionModules, hsame.componentPositions]
  constructor
  · intro hclean
    have hdebt := hclean.debt
    rw [hposition] at hdebt
    refine ⟨hdebt, ?_⟩
    by_contra hopen
    push Not at hopen
    obtain ⟨hsupply, hne, hle⟩ := hopen
    have hmem := (hcollateral hne).mpr ⟨Nat.pos_of_ne_zero hsupply, hle⟩
    exact hclean.unlisted _ (hmodules _ ▸ hmem)
  · rintro ⟨hdebt, hclosed⟩
    refine ⟨hposition ▸ hdebt, fun c hc => ?_⟩
    rw [hmodules] at hc
    by_cases hmarket : IsMarketToken w c
    · by_cases hl : c = (params w).loanToken
      · subst hl
        exact (hloan.mp hc).2 hdebt
      · obtain rfl : c = (params w).collateralToken := hmarket.resolve_right hl
        have hopen := (hcollateral hl).mp hc
        rcases hclosed with hzero | heq | hlt
        · omega
        · exact hl heq
        · omega
    · rw [hwf'.mem_externalPositionModules, SetToken.externalPositionVirtualUnit,
        hexternal c module fun hcm => hmarket hcm.2] at hc
      exact hmarket (hlisted c (hwf.mem_externalPositionModules.mpr hc))

end MorphoLeverageModule

end IndexProtocol
