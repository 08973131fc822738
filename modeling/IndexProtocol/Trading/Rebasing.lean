import IndexProtocol.Registry
import IndexProtocol.ModuleBase
import IndexProtocol.Trading.Backing

/-! The RebasingComponentModule: units that follow balances.

The balance of a rebasing component changes by itself. The module keeps a list of such
components, and anybody may have it write their units for the balances that the SetToken
has; issuance modules that it is registered with have it do so before they act. `module`
is this module's address, and `issuance` says what issuance modules do when it registers. -/
namespace IndexProtocol
open Evm PreciseUnitMath ModuleBase

/-- The state of other contracts, and the rebasing components of the SetToken. -/
structure WithRebasing (χ : Type) where
  rebasing : Registry
  others : χ

namespace RebasingComponentModule
variable {χ : Type}

/-- What issuance modules do, to the state of the others, when they are told of this module. -/
structure Issuance (χ : Type) where
  registerToIssuanceModule : Address → World (WithRebasing χ) → Result χ
  unregisterFromIssuanceModule : Address → World (WithRebasing χ) → Result χ

/-! ### The state, by part -/

def withRebasing (w : World (WithRebasing χ)) (rebasing : Registry) : World (WithRebasing χ) :=
  { w with rest := { w.rest with rebasing := rebasing } }

def withOthers (w : World (WithRebasing χ)) (others : χ) : World (WithRebasing χ) :=
  { w with rest := { w.rest with others := others } }

section Module
variable (issuance : Issuance χ) (module : Address) (w : World (WithRebasing χ))

/-- The loop of `sync`. -/
def syncComponent (component : Address) : Result (World (WithRebasing χ)) := do
  let previousPositionUnit ← w.setToken.getDefaultPositionRealUnit component
  let previousPositionUnit ← SafeCast.toUint256 previousPositionUnit
  let newPositionUnit ← preciseDiv (w.balance component) w.setToken.totalSupply
  if previousPositionUnit ≠ newPositionUnit then
    w.callSetToken fun s => Position.editDefaultPosition s module component newPositionUnit
  else pure w

/-- Before the first issuance nothing is written, as that would remove the components. -/
def sync : Result (World (WithRebasing χ)) := do
  validateOnlyValidAndInitializedSet w.setToken module
  if 0 < w.setToken.totalSupply then runs (syncComponent module) w w.rest.rebasing.list
  else pure w

/-- A call that may fail without consequences. -/
def attempt (call : World (WithRebasing χ) → Result χ) : World (WithRebasing χ) :=
  match call w with
  | .ok others => withOthers w others
  | .error _ => w

def addComponents (newRebasingComponents : List Address) : Result (World (WithRebasing χ)) :=
  withRebasing w <$> runs (·.add "Rebasing component already enabled") w.rest.rebasing
    newRebasingComponents

/-- The module's `initialize`. -/
def initializeSet (sender : Address) (rebasingComponents : List Address) :
    Result (World (WithRebasing χ)) := do
  validateOnlySetManager w.setToken sender
  validateOnlyValidAndPendingSet w.setToken module
  let w ← w.callSetToken (·.initializeModule module)
  let w := w.setToken.modules.foldl
    (fun w other => attempt w (issuance.registerToIssuanceModule other)) w
  addComponents w rebasingComponents

/-- What the SetToken calls when it removes the module. -/
def removeModule : Result (World (WithRebasing χ)) := do
  validateOnlyValidAndInitializedSet w.setToken module
  let w ← sync module w
  let w := withRebasing w ⟨[], w.rest.rebasing.clearFlags⟩
  pure (w.setToken.modules.foldl
    (fun w other => attempt w (issuance.unregisterFromIssuanceModule other)) w)

/-- The manager removes this module from the SetToken. -/
def removeFromSet (sender : Address) : Result (World (WithRebasing χ)) := do
  w.setToken.validateRemoveModule sender module
  let w ← removeModule issuance module w
  w.callSetToken (·.finishRemoveModule module)

def registerToModule (sender debtIssuanceModule : Address) : Result (World (WithRebasing χ)) := do
  validateOnlyManagerAndValidSet w.setToken module sender
  require (w.setToken.isInitializedModule debtIssuanceModule = true) "Issuance not initialized"
  withOthers w <$> issuance.registerToIssuanceModule debtIssuanceModule w

def addRebasingComponents (sender : Address) (newRebasingComponents : List Address) :
    Result (World (WithRebasing χ)) := do
  validateOnlyManagerAndValidSet w.setToken module sender
  addComponents w newRebasingComponents

def removeRebasingComponents (sender : Address) (rebasingComponents : List Address) :
    Result (World (WithRebasing χ)) := do
  validateOnlyManagerAndValidSet w.setToken module sender
  withRebasing w <$> runs
    (·.remove AddressArrayUtils.removeStorage "Rebasing component not enabled") w.rest.rebasing
    rebasingComponents

/-! ### Hooks of the issuance modules -/

/-- What the hooks before an issuance or a redemption do, whatever else they are told. -/
def syncHook (caller : Address) : Result (World (WithRebasing χ)) := do
  w.setToken.validateOnlyModule caller
  sync module w

def moduleIssueHook (caller : Address) (_setTokenQuantity : Nat) :
    Result (World (WithRebasing χ)) :=
  syncHook module w caller

def moduleRedeemHook (caller : Address) (_setTokenQuantity : Nat) :
    Result (World (WithRebasing χ)) :=
  syncHook module w caller

def invokePreIssueHook (caller _reserveAsset : Address) (_reserveAssetQuantity : Nat)
    (_sender _to : Address) : Result (World (WithRebasing χ)) :=
  syncHook module w caller

def invokePreRedeemHook (caller : Address) (_redeemQuantity : Nat) (_sender _to : Address) :
    Result (World (WithRebasing χ)) :=
  syncHook module w caller

/-- The hooks before each component leave all to the first one. -/
def componentHook (caller : Address) : Result Unit := w.setToken.validateOnlyModule caller

end Module

/-! ### One component -/

variable {issuance : Issuance χ} {module token other : Address} {w v : World (WithRebasing χ)}

/-- The unit is what the balance allows, but for the rounding of the multiplier. -/
structure Synced (w : World (WithRebasing χ)) (token : Address) : Prop where
  le : w.unit token ≤ w.balance token * preciseUnit / w.setToken.totalSupply
  le_step : w.balance token * preciseUnit / w.setToken.totalSupply ≤
    w.unit token + SetToken.unitStep w.setToken.positionMultiplier

theorem Synced.backed (h : Synced w token) : w.Backed token :=
  (Nat.mul_le_mul_right _ h.le).trans (Nat.div_mul_le_self _ _)

/-- Nothing but positions of the SetToken changed. -/
structure OnlyUnits (w v : World (WithRebasing χ)) : Prop where
  only : w.setToken.OnlyPositions v.setToken
  wellFormed : v.setToken.WellFormed
  tokens : v.tokens = w.tokens
  rest : v.rest = w.rest

theorem OnlyUnits.balance (h : OnlyUnits w v) (token : Address) :
    v.balance token = w.balance token := by
  rw [World.balance, World.balance, h.tokens, h.only.self]

theorem OnlyUnits.trans {u : World (WithRebasing χ)} (h : OnlyUnits w u) (h' : OnlyUnits u v) :
    OnlyUnits w v :=
  ⟨h.only.trans h'.only, h'.wellFormed, h'.tokens.trans h.tokens, h'.rest.trans h.rest⟩

/-- A unit that stays is in step if it was. -/
theorem OnlyUnits.synced_iff (h : OnlyUnits w v) (hunit : v.unit token = w.unit token) :
    Synced v token ↔ Synced w token := by
  have hsupply := h.only.totalSupply
  have hmultiplier := h.only.positionMultiplier
  constructor
  · rintro ⟨hle, hstep⟩
    rw [hunit, h.balance, hsupply] at hle hstep
    exact ⟨hle, hmultiplier ▸ hstep⟩
  · rintro ⟨hle, hstep⟩
    constructor
    · rwa [hunit, h.balance, hsupply]
    · rwa [hunit, h.balance, hsupply, hmultiplier]

/-- One component is put in step, and no other unit changes. -/
theorem syncComponent_synced (hwf : w.setToken.WellFormed)
    (h : syncComponent module w token = .ok v) :
    OnlyUnits w v ∧ Synced v token ∧ ∀ other, other ≠ token → v.unit other = w.unit other := by
  simp only [syncComponent, bind_eq_ok, SetToken.getDefaultPositionRealUnit_eq_ok,
    SafeCast.toUint256_eq_ok, preciseDiv_eq_ok] at h
  obtain ⟨_, ⟨_, rfl⟩, unit, hunit, newUnit, ⟨_, _, hnew⟩, h⟩ := h
  have hprevious : w.unit token = unit := by
    rw [World.unit, hunit, Int.toNat_natCast]
  by_cases hchanged : unit ≠ newUnit
  · rw [if_pos hchanged] at h
    have hwritten := World.editDefaultPosition_written hwf h
    refine ⟨⟨hwritten.only, hwritten.wellFormed, hwritten.tokens, hwritten.rest⟩, ⟨?_, ?_⟩,
      hwritten.units⟩
    · rw [hwritten.balance, hwritten.only.totalSupply, hnew]
      exact hwritten.le
    · rw [hwritten.balance, hwritten.only.totalSupply, hwritten.only.positionMultiplier, hnew]
      exact hwritten.le_step
  · rw [if_neg hchanged] at h
    obtain rfl := pure_eq_ok.mp h
    have hkept : w.unit token = w.balance token * preciseUnit / w.setToken.totalSupply := by
      rw [hnew, hprevious, not_ne_iff.mp hchanged]
    exact ⟨⟨.refl _, hwf, rfl, rfl⟩, ⟨hkept.le, hkept.ge.trans (Nat.le_add_right _ _)⟩,
      fun _ _ => rfl⟩

/-- The loop puts every component in step. -/
theorem syncComponents_synced {components : List Address} (hwf : w.setToken.WellFormed)
    (h : runs (syncComponent module) w components = .ok v) :
    OnlyUnits w v ∧ (∀ token, token ∈ components ∨ Synced w token → Synced v token) ∧
      ∀ token, token ∉ components → v.unit token = w.unit token := by
  induction components generalizing w with
  | nil =>
    obtain rfl : w = v := by simpa using h
    exact ⟨⟨.refl _, hwf, rfl, rfl⟩, fun token htoken => htoken.resolve_left List.not_mem_nil,
      fun _ _ => rfl⟩
  | cons component rest ih =>
    obtain ⟨u, hfirst, hrest⟩ := (runs_cons_eq_ok _).mp h
    obtain ⟨honly, hsynced, hunits⟩ := syncComponent_synced hwf hfirst
    obtain ⟨honly', hsynced', hunits'⟩ := ih honly.wellFormed hrest
    refine ⟨honly.trans honly', fun token htoken => ?_, fun token hnot => ?_⟩
    · by_cases hin : token ∈ rest
      · exact hsynced' token (.inl hin)
      · refine hsynced' token (.inr ?_)
        by_cases heq : token = component
        · exact heq ▸ hsynced
        · rw [honly.synced_iff (hunits token heq)]
          exact htoken.resolve_left fun hmem => (List.mem_cons.mp hmem).elim heq hin
    · rw [List.mem_cons, not_or] at hnot
      exact (hunits' token hnot.2).trans (hunits token hnot.1)

theorem sync_synced (hwf : w.setToken.WellFormed) (h : sync module w = .ok v) :
    OnlyUnits w v ∧
      (0 < w.setToken.totalSupply → ∀ token ∈ w.rest.rebasing.list, Synced v token) ∧
      ∀ token, w.setToken.totalSupply = 0 ∨ token ∉ w.rest.rebasing.list →
        v.unit token = w.unit token := by
  simp only [sync, bind_eq_ok] at h
  obtain ⟨_, _, h⟩ := h
  by_cases hsupply : 0 < w.setToken.totalSupply
  · rw [if_pos hsupply] at h
    obtain ⟨honly, hsynced, hunits⟩ := syncComponents_synced hwf h
    refine ⟨honly, fun _ token htoken => hsynced token (.inl htoken), fun token hnot => ?_⟩
    exact hunits token (hnot.resolve_left hsupply.ne')
  · rw [if_neg hsupply] at h
    obtain rfl := pure_eq_ok.mp h
    exact ⟨⟨.refl _, hwf, rfl, rfl⟩, fun habsurd => absurd habsurd hsupply, fun _ _ => rfl⟩

/-! ### Runs -/

/-- What happens to the module and its SetToken, and who calls. -/
inductive Action where
  | sync
  | initializeSet (sender : Address) (rebasingComponents : List Address)
  | removeModule (sender : Address)
  | registerToModule (sender debtIssuanceModule : Address)
  | addRebasingComponents (sender : Address) (newRebasingComponents : List Address)
  | removeRebasingComponents (sender : Address) (rebasingComponents : List Address)
  /-- The hooks of an issuance module. -/
  | syncHook (caller : Address)
  /-- What other modules and the manager do to the SetToken. -/
  | callSetToken (call : SetToken.Call)
  /-- Tokens move, and balances change by themselves. -/
  | elsewhere (tokens : Address → Erc20)

def step (issuance : Issuance χ) (module : Address) (w : World (WithRebasing χ)) :
    Action → Result (World (WithRebasing χ))
  | .sync => sync module w
  | .initializeSet sender rebasingComponents =>
    initializeSet issuance module w sender rebasingComponents
  | .removeModule sender => removeFromSet issuance module w sender
  | .registerToModule sender debtIssuanceModule =>
    registerToModule issuance module w sender debtIssuanceModule
  | .addRebasingComponents sender newRebasingComponents =>
    addRebasingComponents module w sender newRebasingComponents
  | .removeRebasingComponents sender rebasingComponents =>
    removeRebasingComponents module w sender rebasingComponents
  | .syncHook caller => syncHook module w caller
  | .callSetToken call => w.callSetToken (·.call call)
  | .elsewhere tokens => pure { w with tokens := tokens }

/-- What a failed or successful attempt leaves. -/
theorem attempts_eq (call : Address → World (WithRebasing χ) → Result χ) (modules : List Address)
    (w : World (WithRebasing χ)) :
    ∃ others, modules.foldl (fun w other => attempt w (call other)) w = withOthers w others := by
  induction modules generalizing w with
  | nil => exact ⟨w.rest.others, rfl⟩
  | cons other rest ih =>
    have hfirst : ∃ others, attempt w (call other) = withOthers w others := by
      unfold attempt
      split
      · exact ⟨_, rfl⟩
      · exact ⟨w.rest.others, rfl⟩
    obtain ⟨others, hothers⟩ := hfirst
    obtain ⟨others', hothers'⟩ := ih (withOthers w others)
    refine ⟨others', ?_⟩
    rw [List.foldl_cons, hothers, hothers']
    rfl

/-- What every state of a run is like. -/
structure Tracked (w : World (WithRebasing χ)) : Prop where
  wellFormed : w.setToken.WellFormed
  consistent : w.rest.rebasing.Consistent

theorem addComponents_tracked {components : List Address} (h : Tracked w)
    (hadd : addComponents w components = .ok v) : Tracked v := by
  simp only [addComponents, map_eq_ok] at hadd
  obtain ⟨rebasing, hrebasing, rfl⟩ := hadd
  exact ⟨h.wellFormed, h.consistent.adds hrebasing⟩

theorem sync_tracked (h : Tracked w) (hsync : sync module w = .ok v) : Tracked v := by
  obtain ⟨honly, _⟩ := sync_synced h.wellFormed hsync
  exact ⟨honly.wellFormed, honly.rest ▸ h.consistent⟩

theorem step_tracked {a : Action} (h : Tracked w) (hstep : step issuance module w a = .ok v) :
    Tracked v := by
  cases a with
  | sync => exact sync_tracked h hstep
  | initializeSet sender rebasingComponents =>
    simp only [step, initializeSet, bind_eq_ok] at hstep
    obtain ⟨_, _, _, _, u, hcall, hadd⟩ := hstep
    obtain ⟨s, hs, rfl⟩ := World.callSetToken_eq_ok.mp hcall
    obtain ⟨others, hothers⟩ := attempts_eq issuance.registerToIssuanceModule s.modules
      { w with setToken := s }
    rw [hothers] at hadd
    have hwf : s.WellFormed := h.wellFormed.of_same (SetToken.initializeModule_same hs).1
    refine addComponents_tracked ?_ hadd
    exact ⟨hwf, h.consistent⟩
  | removeModule sender =>
    simp only [step, removeFromSet, removeModule, bind_eq_ok, pure_eq_ok] at hstep
    obtain ⟨_, _, _, ⟨_, _, u, hsync, rfl⟩, hcall⟩ := hstep
    have hu := sync_tracked h hsync
    obtain ⟨others, hothers⟩ := attempts_eq issuance.unregisterFromIssuanceModule u.setToken.modules
      (withRebasing u ⟨[], u.rest.rebasing.clearFlags⟩)
    rw [show (withRebasing u ⟨[], u.rest.rebasing.clearFlags⟩).setToken.modules =
      u.setToken.modules from rfl, hothers] at hcall
    obtain ⟨s, hs, rfl⟩ := World.callSetToken_eq_ok.mp hcall
    simp only [SetToken.finishRemoveModule, bind_eq_ok, pure_eq_ok] at hs
    obtain ⟨_, _, rfl⟩ := hs
    have hempty : Registry.Consistent ⟨[], u.rest.rebasing.clearFlags⟩ := by
      rw [hu.consistent.cleared]
      exact Registry.empty_consistent
    exact ⟨hu.wellFormed.of_same ⟨rfl, rfl, rfl, rfl⟩, hempty⟩
  | registerToModule sender debtIssuanceModule =>
    simp only [step, registerToModule, bind_eq_ok, map_eq_ok] at hstep
    obtain ⟨_, _, _, _, others, _, rfl⟩ := hstep
    exact ⟨h.wellFormed, h.consistent⟩
  | addRebasingComponents sender newRebasingComponents =>
    simp only [step, addRebasingComponents, bind_eq_ok] at hstep
    obtain ⟨_, _, hadd⟩ := hstep
    exact addComponents_tracked h hadd
  | removeRebasingComponents sender rebasingComponents =>
    simp only [step, removeRebasingComponents, bind_eq_ok, map_eq_ok] at hstep
    obtain ⟨_, _, rebasing, hrebasing, rfl⟩ := hstep
    exact ⟨h.wellFormed, (h.consistent.removes Registry.erases_removeStorage hrebasing).1⟩
  | syncHook caller =>
    simp only [step, syncHook, bind_eq_ok] at hstep
    obtain ⟨_, _, hsync⟩ := hstep
    exact sync_tracked h hsync
  | callSetToken call =>
    simp only [step] at hstep
    obtain ⟨s, hs, rfl⟩ := World.callSetToken_eq_ok.mp hstep
    exact ⟨SetToken.call_wellFormed h.wellFormed hs, h.consistent⟩
  | elsewhere tokens =>
    obtain rfl := pure_eq_ok.mp hstep
    exact ⟨h.wellFormed, h.consistent⟩

/-- What a sync leaves: the units of the components that are listed follow the balances, and nothing
else changes. -/
structure InStep (w v : World (WithRebasing χ)) : Prop where
  only : OnlyUnits w v
  listed_iff : ∀ token, w.rest.rebasing.list.count token =
    if w.rest.rebasing.flag token = true then 1 else 0
  synced : ∀ token, w.rest.rebasing.flag token = true → 0 < w.setToken.totalSupply →
    Synced v token ∧ v.Backed token
  units : ∀ token, w.rest.rebasing.flag token = false ∨ w.setToken.totalSupply = 0 →
    v.unit token = w.unit token

/-- **Units follow balances.** In every run from the creation of the SetToken, whatever happened to
the balances and to the SetToken, a sync makes the unit of every rebasing component that is enabled
the one that the balance allows, to within the multiplier in whole ones, which is one while the
multiplier is at most one. So the balance pays the unit of every share. No other unit changes, and
what is enabled is listed once, whatever was added and removed. -/
theorem sync_inStep {controller : Controller} {factory self manager : Address}
    {components modules : List Address} {units : List Int} {actions : List Action}
    {u : World (WithRebasing χ)}
    (hcreate : SetTokenCreator.create controller factory self components units modules manager =
      .ok w.setToken)
    (hempty : w.rest.rebasing = .empty) (hrun : runs (step issuance module) w actions = .ok u)
    (hsync : sync module u = .ok v) : InStep u v := by
  have hstart : Tracked w :=
    ⟨SetToken.create_wellFormed hcreate, hempty ▸ Registry.empty_consistent⟩
  have hu : Tracked u := runs_invariant Tracked (fun _ _ _ => step_tracked) hstart hrun
  obtain ⟨honly, hsynced, hunits⟩ := sync_synced hu.wellFormed hsync
  refine ⟨honly, hu.consistent, fun token henabled hsupply => ?_, fun token hnot => ?_⟩
  · have hin := hsynced hsupply token ((hu.consistent.mem_iff token).mpr henabled)
    exact ⟨hin, hin.backed⟩
  · refine hunits token (hnot.symm.imp_right fun hdisabled => ?_)
    rw [hu.consistent.mem_iff, hdisabled]
    exact Bool.false_ne_true

/-! Component 1 has a unit of ten in one share, and grows to a balance of 25. -/

section Example
open AuctionRebalanceModuleV1 (exampleController exampleCreation exampleTokens)

def exampleIssuance : Issuance Unit where
  registerToIssuanceModule := fun _ _ => revert "Module must be enabled on controller"
  unregisterFromIssuanceModule := fun _ _ => pure ()

def exampleActions : List Action :=
  [.callSetToken (.changeController exampleController), .initializeSet 9 [3, 1],
    .callSetToken (.initializeModule 60), .callSetToken (.mint 60 77 (10 ^ 18)),
    .removeRebasingComponents 9 [3], .elsewhere (exampleTokens 25)]

theorem sync_inStep_example : ∃ s u v, exampleCreation 10 = .ok s ∧
    runs (step exampleIssuance 50) ⟨s, exampleTokens 10, ⟨.empty, ()⟩⟩ exampleActions = .ok u ∧
    sync 50 u = .ok v ∧ u.unit 1 = 10 ∧ v.unit 1 = 25 ∧ InStep u v := by
  have h : (do
      let s ← exampleCreation 10
      let u ← runs (step exampleIssuance 50) ⟨s, exampleTokens 10, ⟨.empty, ()⟩⟩ exampleActions
      let v ← sync 50 u
      require (u.unit 1 = 10 ∧ v.unit 1 = 25) "") = .ok () := by
    decide +kernel
  simp only [bind_eq_ok, require_eq_ok] at h
  obtain ⟨s, hs, u, hrun, v, hsync, hunit, hunit'⟩ := h
  exact ⟨s, u, v, hs, hrun, hsync, hunit, hunit',
    sync_inStep (w := ⟨s, exampleTokens 10, ⟨.empty, ()⟩⟩) hs rfl hrun hsync⟩

end Example

end RebasingComponentModule

end IndexProtocol
