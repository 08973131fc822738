import IndexProtocol.Leverage.Removal

/-! Runs of a SetToken with the module, from its creation.

The manager initializes, levers, delevers and removes, the issuance module calls
the hooks, anybody syncs; in between others use the SetToken, the tokens and
Morpho as they like, and time passes. A removal abandons the position unless the
manager has closed it before, for nothing in the module checks that. -/
namespace IndexProtocol
open Evm PreciseUnitMath ModuleBase Morpho

namespace MorphoLeverageModule
variable {μ : Type}

inductive Action (μ : Type) where
  | initializeSet (sender : Address) (newMarketParams : MarketParams)
  | sync
  | lever (sender : Address) (borrowQuantityUnits minReceiveQuantityUnits : Nat)
    (tradeAdapterName : String) (tradeData : List UInt8)
  | delever (sender : Address) (redeemQuantityUnits minRepayQuantityUnits : Nat)
    (tradeAdapterName : String) (tradeData : List UInt8)
  | deleverToZeroBorrowBalance (sender : Address) (redeemQuantityUnits : Nat)
    (tradeAdapterName : String) (tradeData : List UInt8)
  | enterCollateralPosition (sender : Address)
  | moduleIssueHook (caller : Address) (quantity : Nat)
  | moduleRedeemHook (caller : Address) (quantity : Nat)
  | componentIssueHook (caller component : Address) (quantity : Nat) (isEquity : Bool)
  | componentRedeemHook (caller component : Address) (quantity : Nat) (isEquity : Bool)
  | registerToModule (sender : Address)
  | removeModule (sender : Address)
  /-- A call of the SetToken by others, who do not write positions of this module. -/
  | callSetToken (call : SetToken.Call)
  /-- Whatever else happens. The market of the SetToken is written by the module only. -/
  | elsewhere (tokens : Tokens) (settings : IssuanceSettings) (others : LeverageState μ)

variable (morpho : MorphoBlue μ) (module issuance : Address)
  (exchanges : Address → ExchangeAdapter)

def step (w : LeverageWorld μ) : Action μ → Result (LeverageWorld μ)
  | .initializeSet sender newMarketParams =>
    MorphoLeverageModule.initializeSet morpho module issuance w sender newMarketParams
  | .sync => MorphoLeverageModule.sync morpho module w
  | .lever sender units minUnits adapter data =>
    MorphoLeverageModule.lever morpho module exchanges w sender units minUnits adapter data
  | .delever sender units minUnits adapter data =>
    MorphoLeverageModule.delever morpho module exchanges w sender units minUnits adapter data
  | .deleverToZeroBorrowBalance sender units adapter data =>
    MorphoLeverageModule.deleverToZeroBorrowBalance morpho module exchanges w sender units adapter data
  | .enterCollateralPosition sender =>
    MorphoLeverageModule.enterCollateralPosition morpho module w sender
  | .moduleIssueHook caller quantity =>
    MorphoLeverageModule.moduleIssueHook morpho module caller w quantity
  | .moduleRedeemHook caller quantity =>
    MorphoLeverageModule.moduleRedeemHook morpho module caller w quantity
  | .componentIssueHook caller component quantity isEquity =>
    MorphoLeverageModule.componentIssueHook morpho module caller w quantity component isEquity
  | .componentRedeemHook caller component quantity isEquity =>
    MorphoLeverageModule.componentRedeemHook morpho module caller w quantity component isEquity
  | .registerToModule sender => MorphoLeverageModule.registerToModule module issuance w sender
  | .removeModule sender => removeFromSet morpho module issuance w sender
  | .callSetToken call => do
    require (call.spares module = true) "Position of another module"
    w.callSetToken (·.call call)
  | .elsewhere tokens settings others =>
    pure { w with tokens := tokens, rest := ⟨settings, { others with marketParams := params w }⟩ }

variable {morpho module issuance exchanges} {w u v : LeverageWorld μ}

/-- The module is listed with the tokens of its market only, and while it is initialized. -/
structure Owned (module : Address) (w : LeverageWorld μ) : Prop where
  wellFormed : w.setToken.WellFormed
  listed : ∀ c, module ∈ w.setToken.externalPositionModules c →
    IsMarketToken w c ∧ w.setToken.moduleStates module = .initialized

theorem Owned.of_confined (h : Owned module w) (hconfined : Confined module w v) : Owned module v := by
  refine ⟨hconfined.wellFormed, fun c hc => ?_⟩
  rw [IsMarketToken, hconfined.params, hconfined.states]
  exact (hconfined.listed c hc).elim (h.listed c) id

theorem setMarketParams_setToken {p : MarketParams} (h : setMarketParams morpho w p = .ok v) :
    v.setToken = w.setToken := by
  simp only [setMarketParams, bind_eq_ok, pure_eq_ok] at h
  obtain ⟨_, _, rfl⟩ := h
  rfl

/-- Initializing happens from the pending state, in which the module is not listed. -/
theorem initializeSet_owned {sender : Address} {newMarketParams : MarketParams} (h : Owned module w)
    (hinit : initializeSet morpho module issuance w sender newMarketParams = .ok v) :
    Owned module v := by
  simp only [initializeSet, validateOnlyValidAndPendingSet, isSetPendingInitialization,
    SetToken.isPendingModule, bind_eq_ok, require_eq_ok, exists_const, beq_iff_eq] at hinit
  obtain ⟨_, _, ⟨_, hpending⟩, _, w₁, hw₁, _, _, _, hmarket⟩ := hinit
  obtain ⟨s, hs, rfl⟩ := World.callSetToken_eq_ok.mp hw₁
  have hset : v.setToken = s := (setMarketParams_setToken hmarket).trans
    (tryCall_same (fun _ => register_same) rfl).1
  have hsame := (SetToken.initializeModule_same hs).1
  refine ⟨hset ▸ h.wellFormed.of_same hsame, fun c hc => ?_⟩
  rw [hset, SetToken.externalPositionModules, hsame.componentPositions] at hc
  have hstate := (h.listed c hc).2
  rw [hpending] at hstate
  cases hstate

/-- A removal that leaves nothing leaves no listing. -/
theorem removeFromSet_owned {sender : Address} (h : Owned module w) (hclosable : Closable morpho w)
    (hremove : removeFromSet morpho module issuance w sender = .ok v) : Owned module v := by
  have hclean := (removal_clean_iff h.wellFormed (fun c hc => (h.listed c hc).1) hremove).mpr hclosable
  obtain ⟨u, hsync, hsame, _⟩ := removeFromSet_eq hremove
  have hwf := (syncPositions_frame h.wellFormed hsync).1
  exact ⟨hwf.of_same hsame, fun c hc => absurd hc (hclean.unlisted c)⟩

/-- Removals close the position first. -/
def Tidy (morpho : MorphoBlue μ) (w : LeverageWorld μ) : Action μ → Prop
  | .removeModule _ => Closable morpho w
  | _ => True

/-- One step of a run without an untidy removal. -/
theorem step_owned {a : Action μ} (h : Owned module w) (htidy : Tidy morpho w a)
    (ha : step morpho module issuance exchanges w a = .ok v) : Owned module v := by
  have hwf := h.wellFormed
  cases a with
  | initializeSet sender newMarketParams => exact initializeSet_owned h ha
  | sync => exact h.of_confined (sync_confined hwf ha)
  | lever sender units minUnits adapter data => exact h.of_confined (lever_confined hwf ha)
  | delever sender units minUnits adapter data => exact h.of_confined (delever_confined hwf ha)
  | deleverToZeroBorrowBalance sender units adapter data =>
    exact h.of_confined (deleverToZeroBorrowBalance_confined hwf ha)
  | enterCollateralPosition sender => exact h.of_confined (enterCollateralPosition_confined hwf ha)
  | moduleIssueHook caller quantity =>
    simp only [step, MorphoLeverageModule.moduleIssueHook, bind_eq_ok] at ha
    obtain ⟨_, _, hsync⟩ := ha
    exact h.of_confined (sync_confined hwf hsync)
  | moduleRedeemHook caller quantity =>
    simp only [step, MorphoLeverageModule.moduleRedeemHook, bind_eq_ok] at ha
    obtain ⟨_, _, hsync⟩ := ha
    exact h.of_confined (sync_confined hwf hsync)
  | componentIssueHook caller component quantity isEquity =>
    exact h.of_confined (componentIssueHook_confined hwf ha)
  | componentRedeemHook caller component quantity isEquity =>
    exact h.of_confined (componentRedeemHook_confined hwf ha)
  | registerToModule sender => exact h.of_confined (registerToModule_confined hwf ha)
  | removeModule sender => exact removeFromSet_owned h htidy ha
  | callSetToken call =>
    simp only [step, bind_eq_ok, require_eq_ok, exists_const] at ha
    obtain ⟨hspares, hcall⟩ := ha
    obtain ⟨s, hs, rfl⟩ := World.callSetToken_eq_ok.mp hcall
    have hspared := SetToken.call_spared hwf hspares hs
    refine ⟨hspared.wellFormed, fun c hc => ?_⟩
    obtain ⟨hmarket, hstate⟩ := h.listed c (hspared.listed c hc)
    exact ⟨hmarket, hspared.initialized hstate⟩
  | elsewhere tokens settings others =>
    obtain rfl := pure_eq_ok.mp ha
    exact ⟨hwf, h.listed⟩

theorem create_owned {controller : Controller} {factory self manager : Address}
    {components modules : List Address} {units : List Int}
    (h : SetTokenCreator.create controller factory self components units modules manager =
      .ok w.setToken) : Owned module w := by
  refine ⟨SetToken.create_wellFormed h, fun c hc => ?_⟩
  rw [(SetToken.create_empty h).2] at hc
  exact absurd hc List.not_mem_nil

/-- **When a removal abandons nothing.** In every run from the creation of the SetToken whose earlier
removals closed the position first, a removal leaves no debt and no listing of the module exactly
if, before it, nothing is owed and the collateral of one share rounds to nothing. -/
theorem removal_abandons_iff {controller : Controller} {factory self manager : Address}
    {components modules : List Address} {units : List Int} {actions : List (Action μ)}
    {sender : Address}
    (hcreate : SetTokenCreator.create controller factory self components units modules manager =
      .ok w.setToken)
    (htidy : Along (step morpho module issuance exchanges) (Tidy morpho) w actions)
    (hrun : runs (step morpho module issuance exchanges) w actions = .ok u)
    (h : removeFromSet morpho module issuance u sender = .ok v) :
    Clean morpho module (params u) v ↔ Closable morpho u := by
  have howned : Owned module u := runs_induction_along (fun w _ => Owned module w)
    (fun _ _ _ _ => step_owned) (create_owned hcreate) htidy hrun
  exact removal_clean_iff howned.wellFormed (fun c hc => (howned.listed c hc).1) h

/-! The manager supplies the collateral of one share and borrows against it. Then it repays what is
owed, and the share is redeemed, before it removes the module; or it does not. -/

/-- An exchange that gives as much as it takes. -/
def exampleExchange (_ : Address) : ExchangeAdapter where
  spender := 70
  trade := fun sendToken receiveToken destination sendQuantity _ _ tokens => do
    let tokens ← moveTokens tokens sendToken destination 70 sendQuantity
    moveTokens tokens receiveToken 70 destination sendQuantity

def exampleStart : Result (LeverageWorld Ledger) := do
  let s ← exampleCreation
  pure ⟨s, exampleTokens, { exampleSettings with moduleIssuanceHooks := [], isModuleHook := fun _ => false },
    { exampleState 0 0 with marketParams := .empty }⟩

def exampleActions : List (Action Ledger) :=
  [.callSetToken (.initializeModule 60), .callSetToken (.changeController exampleController),
    .initializeSet 9 exampleParams, .callSetToken (.mint 60 77 (10 ^ 18))]

def exampleLevering : List (Action Ledger) :=
  [.enterCollateralPosition 9, .lever 9 (10 ^ 9) 0 "exchange" []]

def exampleClosing : List (Action Ledger) :=
  [.delever 9 (5 * 10 ^ 8) 0 "exchange" [], .deleverToZeroBorrowBalance 9 (10 ^ 9) "exchange" [],
    .moduleRedeemHook 60 (10 ^ 18), .componentRedeemHook 60 1 (10 ^ 18) true,
    .callSetToken (.burn 60 77 (10 ^ 18))]

theorem removal_abandons_example : ∃ w u v, exampleStart = .ok w ∧
    runs (step reference 50 60 exampleExchange) w
      (exampleActions ++ exampleLevering ++ exampleClosing) = .ok u ∧
    removeFromSet reference 50 60 u 9 = .ok v ∧ Clean reference 50 (params u) v := by
  have h : (do
      let w ← exampleStart
      let u ← runs (step reference 50 60 exampleExchange) w
        (exampleActions ++ exampleLevering ++ exampleClosing)
      let _ ← removeFromSet reference 50 60 u 9
      require ((marketPosition reference u (params u)).borrowShares = 0 ∧
        u.setToken.totalSupply = 0) "") = .ok () := by
    decide +kernel
  simp only [bind_eq_ok, require_eq_ok] at h
  obtain ⟨w, hw, u, hu, v, hv, hdebt, hredeemed⟩ := h
  have hcreate : ∃ s, exampleCreation = .ok s ∧ w.setToken = s := by
    simp only [exampleStart, bind_eq_ok, pure_eq_ok] at hw
    obtain ⟨s, hs, rfl⟩ := hw
    exact ⟨s, hs, rfl⟩
  obtain ⟨s, hs, rfl⟩ := hcreate
  have htidy : Along (step reference 50 60 exampleExchange) (Tidy reference) w
      (exampleActions ++ exampleLevering ++ exampleClosing) :=
    along_of_forall (by simp [exampleActions, exampleLevering, exampleClosing, Tidy]) w
  exact ⟨w, u, v, hw, hu, hv, (removal_abandons_iff hs htidy hu hv).mpr ⟨hdebt, .inl hredeemed⟩⟩

theorem removal_abandons_debt : ∃ w u v, exampleStart = .ok w ∧
    runs (step reference 50 60 exampleExchange) w (exampleActions ++ exampleLevering) = .ok u ∧
    removeFromSet reference 50 60 u 9 = .ok v ∧
    (marketPosition reference v (params u)).borrowShares = 10 ^ 15 ∧
    50 ∈ v.setToken.externalPositionModules 1 ∧ 50 ∈ v.setToken.externalPositionModules 2 := by
  have h : (do
      let w ← exampleStart
      let u ← runs (step reference 50 60 exampleExchange) w (exampleActions ++ exampleLevering)
      let v ← removeFromSet reference 50 60 u 9
      require ((marketPosition reference v (params u)).borrowShares = 10 ^ 15 ∧
        50 ∈ v.setToken.externalPositionModules 1 ∧
        50 ∈ v.setToken.externalPositionModules 2) "") = .ok () := by
    decide +kernel
  simp only [bind_eq_ok, require_eq_ok] at h
  obtain ⟨w, hw, u, hu, v, hv, hleft⟩ := h
  exact ⟨w, u, v, hw, hu, hv, hleft⟩

end MorphoLeverageModule

end IndexProtocol
