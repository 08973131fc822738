import IndexProtocol.SetToken.State

/-! The functions of the SetToken that change it.

Modules may call the privileged ones, if they are initialized on the SetToken
and enabled on the Controller, and while the SetToken is locked only the locker
may. The manager adds and removes modules. Each function comes with one rule:
the guards and what is written. -/
namespace IndexProtocol
open Evm PreciseUnitMath

namespace SetToken
variable (s : SetToken) (sender : Address)

def validateOnlyModule : Result Unit := do
  require (s.moduleStates sender = .initialized) "Only the module can call"
  require (s.controller.isModule sender = true) "Module must be enabled on controller"

def validateOnlyManager : Result Unit := require (sender = s.manager) "Only manager can call"

def validateWhenLockedOnlyLocker : Result Unit :=
  require (s.isLocked = true → sender = s.locker) "When locked, only the locker can call"

/-- The modifiers `onlyModule` and `whenLockedOnlyLocker`. -/
def validatePrivileged : Result Unit := do
  s.validateOnlyModule sender
  s.validateWhenLockedOnlyLocker sender

/-- Writes one entry of the mapping of positions. -/
def updatePosition (component : Address) (f : ComponentPosition → ComponentPosition) : SetToken :=
  { s with
    componentPositions :=
      Function.update s.componentPositions component (f (s.componentPositions component)) }

/-! ### Positions -/

def addComponent (component : Address) : Result SetToken := do
  s.validatePrivileged sender
  require (s.isComponent component = false) "Must not be component"
  pure { s with components := s.components ++ [component] }

def removeComponent (component : Address) : Result SetToken := do
  s.validatePrivileged sender
  let components ← AddressArrayUtils.removeStorage s.components component
  pure { s with components := components }

def editDefaultPositionUnit (component : Address) (realUnit : Int) : Result SetToken := do
  s.validatePrivileged sender
  let virtualUnit ← s.convertRealToVirtualUnit realUnit
  pure (s.updatePosition component fun p => { p with virtualUnit := virtualUnit })

def addExternalPositionModule (component positionModule : Address) : Result SetToken := do
  s.validatePrivileged sender
  require (s.isExternalPositionModule component positionModule = false) "Module already added"
  pure (s.updatePosition component fun p =>
    { p with externalPositionModules := p.externalPositionModules ++ [positionModule] })

/-- Also deletes the external position. -/
def removeExternalPositionModule (component positionModule : Address) : Result SetToken := do
  s.validatePrivileged sender
  let modules ←
    AddressArrayUtils.removeStorage (s.externalPositionModules component) positionModule
  pure (s.updatePosition component fun p =>
    { p with
      externalPositionModules := modules
      externalPositions := Function.update p.externalPositions positionModule .empty })

def editExternalPositionUnit (component positionModule : Address) (realUnit : Int) :
    Result SetToken := do
  s.validatePrivileged sender
  let virtualUnit ← s.convertRealToVirtualUnit realUnit
  pure (s.updatePosition component fun p =>
    { p with
      externalPositions := Function.update p.externalPositions positionModule
        { p.externalPositions positionModule with virtualUnit := virtualUnit } })

def editExternalPositionData (component positionModule : Address) (data : List UInt8) :
    Result SetToken := do
  s.validatePrivileged sender
  pure (s.updatePosition component fun p =>
    { p with
      externalPositions := Function.update p.externalPositions positionModule
        { p.externalPositions positionModule with data := data } })

def editPositionMultiplier (newMultiplier : Int) : Result SetToken := do
  s.validatePrivileged sender
  s.validateNewMultiplier newMultiplier
  pure { s with positionMultiplier := newMultiplier }

/-! ### Shares -/

def mint (account : Address) (quantity : Nat) : Result SetToken := do
  s.validatePrivileged sender
  let erc20 ← s.erc20.mint account quantity
  pure { s with erc20 := erc20 }

def burn (account : Address) (quantity : Nat) : Result SetToken := do
  s.validatePrivileged sender
  let erc20 ← s.erc20.burn account quantity
  pure { s with erc20 := erc20 }

/-! ### The lock -/

def lock : Result SetToken := do
  s.validateOnlyModule sender
  require (s.isLocked = false) "Must not be locked"
  pure { s with locker := sender, isLocked := true }

def unlock : Result SetToken := do
  s.validateOnlyModule sender
  require (s.isLocked = true) "Must be locked"
  require (s.locker = sender) "Must be locker"
  pure { s with locker := 0, isLocked := false }

/-! ### Modules -/

def setModuleState (module : Address) (state : ModuleState) : SetToken :=
  { s with moduleStates := Function.update s.moduleStates module state }

def addModule (module : Address) : Result SetToken := do
  s.validateOnlyManager sender
  require (s.moduleStates module = .none) "Module must not be added"
  require (s.controller.isModule module = true) "Must be enabled on Controller"
  pure (s.setModuleState module .pending)

/-- What `removeModule` checks before it calls the module. -/
def validateRemoveModule (module : Address) : Result Unit := do
  s.validateOnlyManager sender
  require (s.isLocked = false) "Only when unlocked"
  require (s.moduleStates module = .initialized) "Module must be added"

/-- What `removeModule` writes after the module returned. -/
def finishRemoveModule (module : Address) : Result SetToken := do
  let s := s.setModuleState module .none
  let modules ← AddressArrayUtils.removeStorage s.modules module
  pure { s with modules := modules }

/-- The module's own `removeModule` is called in between, and may change the SetToken. -/
def removeModule (callback : SetToken → Result SetToken) (module : Address) : Result SetToken := do
  s.validateRemoveModule sender module
  let s ← callback s
  s.finishRemoveModule module

def removePendingModule (module : Address) : Result SetToken := do
  s.validateOnlyManager sender
  require (s.isLocked = false) "Only when unlocked"
  require (s.moduleStates module = .pending) "Module must be pending"
  pure (s.setModuleState module .none)

def initializeModule : Result SetToken := do
  require (s.isLocked = false) "Only when unlocked"
  require (s.moduleStates sender = .pending) "Module must be pending"
  let s := s.setModuleState sender .initialized
  pure { s with modules := s.modules ++ [sender] }

def setManager (manager : Address) : Result SetToken := do
  s.validateOnlyManager sender
  require (s.isLocked = false) "Only when unlocked"
  pure { s with manager := manager }

/-! ### What the privileged functions require and write -/

/-- The sender may call the privileged functions. -/
structure Privileged (s : SetToken) (sender : Address) : Prop where
  initialized : s.moduleStates sender = .initialized
  enabled : s.controller.isModule sender = true
  locker : s.isLocked = true → sender = s.locker

variable {s sender} {t : SetToken} {component module account : Address}

@[simp] theorem validatePrivileged_eq_ok {u : Unit} :
    s.validatePrivileged sender = .ok u ↔ s.Privileged sender := by
  simp only [validatePrivileged, validateOnlyModule, validateWhenLockedOnlyLocker, bind_eq_ok,
    require_eq_ok, exists_const]
  exact ⟨fun h => ⟨h.1.1, h.1.2, h.2⟩, fun h => ⟨⟨h.initialized, h.enabled⟩, h.locker⟩⟩

theorem isComponent_eq_false : s.isComponent component = false ↔ component ∉ s.components := by
  rw [← Bool.not_eq_true]
  exact not_congr (ArrayUtils.contains_eq_true _ _)

theorem isComponent_eq_true : s.isComponent component = true ↔ component ∈ s.components :=
  ArrayUtils.contains_eq_true _ _

theorem isExternalPositionModule_eq_true :
    s.isExternalPositionModule component module = true ↔
      module ∈ s.externalPositionModules component :=
  ArrayUtils.contains_eq_true _ _

theorem isExternalPositionModule_eq_false :
    s.isExternalPositionModule component module = false ↔
      module ∉ s.externalPositionModules component := by
  rw [← Bool.not_eq_true]
  exact not_congr isExternalPositionModule_eq_true

theorem addComponent_eq_ok :
    s.addComponent sender component = .ok t ↔
      s.Privileged sender ∧ component ∉ s.components ∧
        { s with components := s.components ++ [component] } = t := by
  simp [addComponent, isComponent_eq_false]

theorem removeComponent_eq_ok :
    s.removeComponent sender component = .ok t ↔
      s.Privileged sender ∧ ∃ components,
        AddressArrayUtils.removeStorage s.components component = .ok components ∧
          { s with components := components } = t := by
  simp [removeComponent]

theorem editDefaultPositionUnit_eq_ok {realUnit : Int} :
    s.editDefaultPositionUnit sender component realUnit = .ok t ↔
      s.Privileged sender ∧ ∃ virtualUnit, s.convertRealToVirtualUnit realUnit = .ok virtualUnit ∧
        s.updatePosition component (fun p => { p with virtualUnit := virtualUnit }) = t := by
  simp [editDefaultPositionUnit]

theorem addExternalPositionModule_eq_ok :
    s.addExternalPositionModule sender component module = .ok t ↔
      s.Privileged sender ∧ module ∉ s.externalPositionModules component ∧
        s.updatePosition component (fun p =>
          { p with externalPositionModules := p.externalPositionModules ++ [module] }) = t := by
  simp [addExternalPositionModule, isExternalPositionModule_eq_false]

theorem removeExternalPositionModule_eq_ok :
    s.removeExternalPositionModule sender component module = .ok t ↔
      s.Privileged sender ∧ ∃ modules,
        AddressArrayUtils.removeStorage (s.externalPositionModules component) module = .ok modules ∧
          s.updatePosition component (fun p =>
            { p with
              externalPositionModules := modules
              externalPositions := Function.update p.externalPositions module .empty }) = t := by
  simp [removeExternalPositionModule]

theorem editExternalPositionUnit_eq_ok {realUnit : Int} :
    s.editExternalPositionUnit sender component module realUnit = .ok t ↔
      s.Privileged sender ∧ ∃ virtualUnit, s.convertRealToVirtualUnit realUnit = .ok virtualUnit ∧
        s.updatePosition component (fun p =>
          { p with
            externalPositions := Function.update p.externalPositions module
              { p.externalPositions module with virtualUnit := virtualUnit } }) = t := by
  simp [editExternalPositionUnit]

theorem editExternalPositionData_eq_ok {data : List UInt8} :
    s.editExternalPositionData sender component module data = .ok t ↔
      s.Privileged sender ∧ s.updatePosition component (fun p =>
        { p with
          externalPositions := Function.update p.externalPositions module
            { p.externalPositions module with data := data } }) = t := by
  simp [editExternalPositionData]

theorem editPositionMultiplier_eq_ok {newMultiplier : Int} :
    s.editPositionMultiplier sender newMultiplier = .ok t ↔
      s.Privileged sender ∧ (∃ u, s.validateNewMultiplier newMultiplier = .ok u) ∧
        { s with positionMultiplier := newMultiplier } = t := by
  simp [editPositionMultiplier]

theorem mint_eq_ok {quantity : Nat} :
    s.mint sender account quantity = .ok t ↔
      s.Privileged sender ∧ ∃ erc20, s.erc20.mint account quantity = .ok erc20 ∧
        { s with erc20 := erc20 } = t := by
  simp [mint]

theorem burn_eq_ok {quantity : Nat} :
    s.burn sender account quantity = .ok t ↔
      s.Privileged sender ∧ ∃ erc20, s.erc20.burn account quantity = .ok erc20 ∧
        { s with erc20 := erc20 } = t := by
  simp [burn]

/-! ### What an entry of the mapping reads after it is written -/

section Update
variable {f : ComponentPosition → ComponentPosition} {c : Address}

@[simp] theorem updatePosition_components :
    (s.updatePosition component f).components = s.components := rfl

@[simp] theorem updatePosition_positionMultiplier :
    (s.updatePosition component f).positionMultiplier = s.positionMultiplier := rfl

@[simp] theorem updatePosition_erc20 : (s.updatePosition component f).erc20 = s.erc20 := rfl

theorem updatePosition_updatePosition {g : ComponentPosition → ComponentPosition} :
    (s.updatePosition component f).updatePosition component g =
      s.updatePosition component (fun p => g (f p)) := by
  simp [updatePosition]

@[simp] theorem updatePosition_same :
    (s.updatePosition component f).componentPositions component =
      f (s.componentPositions component) :=
  Function.update_self _ _ _

@[simp] theorem updatePosition_of_ne (h : c ≠ component) :
    (s.updatePosition component f).componentPositions c = s.componentPositions c :=
  Function.update_of_ne h _ _

end Update

end SetToken

end IndexProtocol
