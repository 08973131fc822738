import IndexProtocol.Issuance.Basic

/-! The DebtIssuanceModule: issue and redeem with debt.

Units of a component above zero, default and external, are equity; the others
are debt. Issuing pulls the equity and pays out the debt, redeeming the other
way round, and the modules that hold external positions are called for each
component to move them. `module` is this module's address, `hooks` are the other
modules, by address. -/
namespace IndexProtocol
open Evm PreciseUnitMath ModuleBase

structure IssuanceSettings where
  maxManagerFee : Nat
  managerIssueFee : Nat
  managerRedeemFee : Nat
  feeRecipient : Address
  managerIssuanceHook : Address
  moduleIssuanceHooks : List Address
  isModuleHook : Address → Bool

/-- The settings for the SetToken, next to the state of other contracts. -/
structure IssuanceState (χ : Type) where
  issuanceSettings : IssuanceSettings
  others : χ

abbrev IssuanceWorld (χ : Type) := World (IssuanceState χ)

/-- What a module offers to the issuance module that calls it. -/
structure ModuleIssuanceHook (χ : Type) where
  moduleIssueHook : (caller : Address) → IssuanceWorld χ → Nat → Result (IssuanceWorld χ)
  moduleRedeemHook : (caller : Address) → IssuanceWorld χ → Nat → Result (IssuanceWorld χ)
  componentIssueHook : (caller : Address) → IssuanceWorld χ → Nat → (component : Address) →
    (isEquity : Bool) → Result (IssuanceWorld χ)
  componentRedeemHook : (caller : Address) → IssuanceWorld χ → Nat → (component : Address) →
    (isEquity : Bool) → Result (IssuanceWorld χ)

/-- What is owed of one component, in equity and in debt. -/
structure IssuanceUnits where
  component : Address
  equity : Nat
  debt : Nat
  deriving DecidableEq, Repr

namespace DebtIssuanceModule
variable {χ : Type} (module : Address)

def protocolFeeSplitIndex : Nat := 0

/-! ### Units and fees -/

/-- The quantity with fees added or taken off, the manager's fee and the protocol's. -/
def calculateTotalFees (s : SetToken) (settings : IssuanceSettings) (quantity : Nat)
    (isIssue : Bool) : Result (Nat × Nat × Nat) := do
  let protocolFeeSplit := s.controller.fees module protocolFeeSplitIndex
  let totalFeeRate := if isIssue then settings.managerIssueFee else settings.managerRedeemFee
  let totalFee ← preciseMul totalFeeRate quantity
  let protocolFee ← preciseMul totalFee protocolFeeSplit
  let managerFee ← SafeMath.sub totalFee protocolFee
  let totalQuantity ← (if isIssue then SafeMath.add quantity totalFee
    else SafeMath.sub quantity totalFee)
  pure (totalQuantity, managerFee, protocolFee)

/-- Adds one external unit to the equity or to the debt. -/
def cumulate (s : SetToken) (component : Address) (cumulative : Int × Int) (positionModule : Address) :
    Result (Int × Int) := do
  let externalPositionUnit ← s.getExternalPositionRealUnit component positionModule
  if 0 < externalPositionUnit then
    let equity ← SignedSafeMath.add cumulative.1 externalPositionUnit
    pure (equity, cumulative.2)
  else
    let debt ← SignedSafeMath.add cumulative.2 externalPositionUnit
    pure (cumulative.1, debt)

/-- Equity and debt of one component for one share. -/
def getTotalIssuanceUnits (s : SetToken) (component : Address) : Result IssuanceUnits := do
  let defaultUnit ← s.getDefaultPositionRealUnit component
  let cumulative ← runs (cumulate s component) (defaultUnit, 0) (s.externalPositionModules component)
  let equity ← SafeCast.toUint256 cumulative.1
  let negated ← SignedSafeMath.mul cumulative.2 (-1)
  let debt ← SafeCast.toUint256 negated
  pure ⟨component, equity, debt⟩

/-- What is owed is rounded up to the side of the SetToken. -/
def requiredUnits (quantity : Nat) (isIssue : Bool) (units : IssuanceUnits) :
    Result IssuanceUnits := do
  let equity ← (if isIssue then preciseMulCeil units.equity quantity
    else preciseMul units.equity quantity)
  let debt ← (if isIssue then preciseMul units.debt quantity
    else preciseMulCeil units.debt quantity)
  pure ⟨units.component, equity, debt⟩

def calculateRequiredComponentIssuanceUnits (s : SetToken) (quantity : Nat) (isIssue : Bool) :
    Result (List IssuanceUnits) := do
  let units ← s.components.mapM (getTotalIssuanceUnits s)
  units.mapM (requiredUnits quantity isIssue)

/-! ### Moving components -/

variable (hooks : Address → ModuleIssuanceHook χ)

/-- Calls the modules that hold an external position in the component. -/
def executeExternalPositionHooks (w : IssuanceWorld χ) (quantity : Nat) (component : Address)
    (isIssue isEquity : Bool) : Result (IssuanceWorld χ) :=
  runs (fun w positionModule =>
      if isIssue then (hooks positionModule).componentIssueHook module w quantity component isEquity
      else (hooks positionModule).componentRedeemHook module w quantity component isEquity)
    w (w.setToken.externalPositionModules component)

def resolveEquityPosition (sender recipient : Address) (quantity : Nat) (isIssue : Bool)
    (w : IssuanceWorld χ) (units : IssuanceUnits) : Result (IssuanceWorld χ) := do
  if 0 < units.equity then
    if isIssue then
      let w ← ExplicitERC20.transferFrom w module units.component sender w.setToken.self units.equity
      executeExternalPositionHooks module hooks w quantity units.component true true
    else
      let w ← executeExternalPositionHooks module hooks w quantity units.component false true
      Invoke.strictInvokeTransfer w module units.component recipient units.equity
  else pure w

def resolveDebtPosition (sender : Address) (quantity : Nat) (isIssue : Bool)
    (w : IssuanceWorld χ) (units : IssuanceUnits) : Result (IssuanceWorld χ) := do
  if 0 < units.debt then
    if isIssue then
      let w ← executeExternalPositionHooks module hooks w quantity units.component true false
      Invoke.strictInvokeTransfer w module units.component sender units.debt
    else
      let w ← ExplicitERC20.transferFrom w module units.component sender w.setToken.self units.debt
      executeExternalPositionHooks module hooks w quantity units.component false false
  else pure w

def resolveEquityPositions (w : IssuanceWorld χ) (sender recipient : Address) (quantity : Nat)
    (isIssue : Bool) (units : List IssuanceUnits) : Result (IssuanceWorld χ) :=
  runs (resolveEquityPosition module hooks sender recipient quantity isIssue) w units

def resolveDebtPositions (w : IssuanceWorld χ) (sender : Address) (quantity : Nat)
    (isIssue : Bool) (units : List IssuanceUnits) : Result (IssuanceWorld χ) :=
  runs (resolveDebtPosition module hooks sender quantity isIssue) w units

/-- Protocol fees are only collected on manager fees. -/
def resolveFees (w : IssuanceWorld χ) (managerFee protocolFee : Nat) : Result (IssuanceWorld χ) := do
  if 0 < managerFee then
    let w ← w.callSetToken (·.mint module w.rest.issuanceSettings.feeRecipient managerFee)
    if 0 < protocolFee then
      w.callSetToken (·.mint module w.setToken.controller.feeRecipient protocolFee)
    else pure w
  else pure w

/-! ### Issue and redeem -/

def callManagerPreIssueHooks (managerHooks : Address → PreIssueHook (IssuanceState χ))
    (w : IssuanceWorld χ) (quantity : Nat) (caller recipient : Address) : Result Unit :=
  if w.rest.issuanceSettings.managerIssuanceHook ≠ 0 then
    managerHooks w.rest.issuanceSettings.managerIssuanceHook w quantity caller recipient
  else pure ()

def callModulePreIssueHooks (w : IssuanceWorld χ) (quantity : Nat) : Result (IssuanceWorld χ) :=
  runs (fun w hook => (hooks hook).moduleIssueHook module w quantity) w
    w.rest.issuanceSettings.moduleIssuanceHooks

def callModulePreRedeemHooks (w : IssuanceWorld χ) (quantity : Nat) : Result (IssuanceWorld χ) :=
  runs (fun w hook => (hooks hook).moduleRedeemHook module w quantity) w
    w.rest.issuanceSettings.moduleIssuanceHooks

/-- What `issue` does once the hooks before it were called. -/
def issueResolved (w : IssuanceWorld χ) (sender : Address) (quantity : Nat) (recipient : Address) :
    Result (IssuanceWorld χ) := do
  let (quantityWithFees, managerFee, protocolFee) ←
    calculateTotalFees module w.setToken w.rest.issuanceSettings quantity true
  let units ← calculateRequiredComponentIssuanceUnits w.setToken quantityWithFees true
  let w ← resolveEquityPositions module hooks w sender recipient quantityWithFees true units
  let w ← resolveDebtPositions module hooks w sender quantityWithFees true units
  let w ← resolveFees module w managerFee protocolFee
  w.callSetToken (·.mint module recipient quantity)

def issue (managerHooks : Address → PreIssueHook (IssuanceState χ)) (w : IssuanceWorld χ)
    (sender : Address) (quantity : Nat) (recipient : Address) : Result (IssuanceWorld χ) := do
  validateOnlyValidAndInitializedSet w.setToken module
  require (0 < quantity) "Issue quantity must be > 0"
  callManagerPreIssueHooks managerHooks w quantity sender recipient
  let w ← callModulePreIssueHooks module hooks w quantity
  issueResolved module hooks w sender quantity recipient

/-- What `redeem` does once the hooks before it were called. -/
def redeemResolved (w : IssuanceWorld χ) (sender : Address) (quantity : Nat) (recipient : Address) :
    Result (IssuanceWorld χ) := do
  let w ← w.callSetToken (·.burn module sender quantity)
  let (quantityNetFees, managerFee, protocolFee) ←
    calculateTotalFees module w.setToken w.rest.issuanceSettings quantity false
  let units ← calculateRequiredComponentIssuanceUnits w.setToken quantityNetFees false
  let w ← resolveDebtPositions module hooks w sender quantityNetFees false units
  let w ← resolveEquityPositions module hooks w sender recipient quantityNetFees false units
  resolveFees module w managerFee protocolFee

def redeem (w : IssuanceWorld χ) (sender : Address) (quantity : Nat) (recipient : Address) :
    Result (IssuanceWorld χ) := do
  validateOnlyValidAndInitializedSet w.setToken module
  require (0 < quantity) "Redeem quantity must be > 0"
  let w ← callModulePreRedeemHooks module hooks w quantity
  redeemResolved module hooks w sender quantity recipient

/-! ### Registration of modules -/

/-- Called by a module of the SetToken. -/
def validateRegistration (s : SetToken) (caller : Address) : Result Unit := do
  s.validateOnlyModule caller
  validateOnlyValidAndInitializedSet s module

def registerToIssuanceModule (w : IssuanceWorld χ) (caller : Address) :
    Result (IssuanceWorld χ) := do
  validateRegistration module w.setToken caller
  let settings := w.rest.issuanceSettings
  require (settings.isModuleHook caller = false) "Module already registered."
  let settings := { settings with
    moduleIssuanceHooks := settings.moduleIssuanceHooks ++ [caller]
    isModuleHook := Function.update settings.isModuleHook caller true }
  pure { w with rest := { w.rest with issuanceSettings := settings } }

def unregisterFromIssuanceModule (w : IssuanceWorld χ) (caller : Address) :
    Result (IssuanceWorld χ) := do
  validateRegistration module w.setToken caller
  let settings := w.rest.issuanceSettings
  require (settings.isModuleHook caller = true) "Module not registered."
  let moduleIssuanceHooks ← AddressArrayUtils.removeStorage settings.moduleIssuanceHooks caller
  let settings := { settings with
    moduleIssuanceHooks := moduleIssuanceHooks
    isModuleHook := Function.update settings.isModuleHook caller false }
  pure { w with rest := { w.rest with issuanceSettings := settings } }

/-! ### What is owed of each component -/

section Owed
variable {s : SetToken} {quantity : Nat} {isIssue : Bool} {component : Address}

theorem requiredUnits_eq_ok {owed units : IssuanceUnits} :
    requiredUnits quantity isIssue units = .ok owed →
      owed.component = units.component ∧
        owed.equity = (if isIssue then units.equity * quantity ⌈/⌉ preciseUnit
          else units.equity * quantity / preciseUnit) ∧
        owed.debt = if isIssue then units.debt * quantity / preciseUnit
          else units.debt * quantity ⌈/⌉ preciseUnit := by
  intro h
  cases isIssue
  all_goals
    simp only [requiredUnits, if_true, Bool.false_eq_true, if_false, bind_eq_ok, preciseMul_eq_ok,
      preciseMulCeil_eq_ok, pure_eq_ok] at h ⊢
    obtain ⟨_, ⟨_, rfl⟩, _, ⟨_, rfl⟩, rfl⟩ := h
    exact ⟨rfl, rfl, rfl⟩

theorem getTotalIssuanceUnits_component {units : IssuanceUnits}
    (h : getTotalIssuanceUnits s component = .ok units) : units.component = component := by
  simp only [getTotalIssuanceUnits, bind_eq_ok, pure_eq_ok] at h
  obtain ⟨_, _, _, _, _, _, _, _, _, _, rfl⟩ := h
  rfl

/-- Every component is listed once, with what is required of its total units. -/
theorem required_eq_ok {units : List IssuanceUnits}
    (h : calculateRequiredComponentIssuanceUnits s quantity isIssue = .ok units) :
    units.map IssuanceUnits.component = s.components ∧ ∀ a ∈ units, ∃ total,
      getTotalIssuanceUnits s a.component = .ok total ∧
        requiredUnits quantity isIssue total = .ok a := by
  simp only [calculateRequiredComponentIssuanceUnits, bind_eq_ok, mapM_eq_ok] at h
  obtain ⟨totals, htotals, hunits⟩ := h
  generalize s.components = components at htotals ⊢
  induction htotals generalizing units with
  | nil =>
    obtain rfl := List.forall₂_nil_left_iff.mp hunits
    exact ⟨rfl, fun a ha => absurd ha List.not_mem_nil⟩
  | @cons c total components totals htotal _ ih =>
    obtain ⟨a, rest, ha, hrest, rfl⟩ := List.forall₂_cons_left_iff.mp hunits
    obtain ⟨hmap, hmem⟩ := ih hrest
    have hc : a.component = c :=
      (requiredUnits_eq_ok ha).1.trans (getTotalIssuanceUnits_component htotal)
    refine ⟨by rw [List.map_cons, hmap, hc], fun b hb => ?_⟩
    rcases List.mem_cons.mp hb with rfl | hb
    · exact ⟨total, hc ▸ htotal, ha⟩
    · exact hmem b hb

end Owed

end DebtIssuanceModule

end IndexProtocol
