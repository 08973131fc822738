import IndexProtocol.SetToken.Privileged

/-! The BaseManagerV2: a SetToken managed by an operator and a methodologist.

Extensions call modules through the manager. The operator adds and removes
extensions and modules alone; a protected module can be called by the extensions
authorized for it only, and what is protected changes by mutual upgrade, that is
when both have made the same call. The hash that records the first of two such
calls is kept as the pair of the call and its sender. -/
namespace IndexProtocol
open Evm

structure ProtectedModule where
  isProtected : Bool
  authorizedExtensionsList : List Address
  authorizedExtensions : Address → Bool

/-- The calls that need both parties. -/
inductive Upgrade where
  | setManager (newManager : Address)
  | authorizeExtension (module extension : Address)
  | revokeExtensionAuthorization (module extension : Address)
  | replaceProtectedModule (oldModule newModule : Address) (newExtensions : List Address)
  | emergencyReplaceProtectedModule (module : Address) (extensions : List Address)
  deriving DecidableEq, Repr

structure BaseManager where
  self : Address
  setToken : Address
  extensions : List Address
  isExtension : Address → Bool
  operator : Address
  methodologist : Address
  emergencies : Nat
  protectedModules : Address → ProtectedModule
  protectedModulesList : List Address
  initialized : Bool
  mutualUpgrades : Upgrade × Address → Bool

/-- The value of the mapping where nothing was written. -/
def ProtectedModule.empty : ProtectedModule := ⟨false, [], fun _ => false⟩

namespace BaseManager

def construct (self setToken operator methodologist : Address) : BaseManager where
  self := self
  setToken := setToken
  extensions := []
  isExtension := fun _ => false
  operator := operator
  methodologist := methodologist
  emergencies := 0
  protectedModules := fun _ => .empty
  protectedModulesList := []
  initialized := false
  mutualUpgrades := fun _ => false

variable (m : BaseManager) (sender : Address)

def onlyOperator : Result Unit := require (sender = m.operator) "Must be operator"

def onlyMethodologist : Result Unit := require (sender = m.methodologist) "Must be methodologist"

def onlyExtension : Result Unit := require (m.isExtension sender = true) "Must be extension"

def upgradesPermitted : Result Unit :=
  require (m.emergencies = 0) "Upgrades paused by emergency"

def onlyEmergency : Result Unit := require (0 < m.emergencies) "Not in emergency"

/-! ### Extensions and protected modules -/

def setProtectedModule (module : Address) (f : ProtectedModule → ProtectedModule) : BaseManager :=
  { m with
    protectedModules := Function.update m.protectedModules module (f (m.protectedModules module)) }

/-- Appends to the array and sets the flag. -/
def pushExtension (extension : Address) : BaseManager :=
  { m with
    extensions := m.extensions ++ [extension]
    isExtension := Function.update m.isExtension extension true }

/-- Adds the extension where it is missing, and authorizes it for the module. -/
def authorize (module extension : Address) : BaseManager :=
  let m := if m.isExtension extension = false then m.pushExtension extension else m
  m.setProtectedModule module fun p =>
    { p with
      authorizedExtensions := Function.update p.authorizedExtensions extension true
      authorizedExtensionsList := p.authorizedExtensionsList ++ [extension] }

/-- The extension is authorized for one of the protected modules. -/
def isAuthorizedExtension (extension : Address) : Bool :=
  m.protectedModulesList.any fun module => (m.protectedModules module).authorizedExtensions extension

def senderAuthorizedForModule (module : Address) : Bool :=
  if (m.protectedModules module).isProtected = true then
    (m.protectedModules module).authorizedExtensions sender
  else true

/-- Deleting the struct empties its list; its mapping stays as the loop left it. -/
def unProtect (module : Address) : Result BaseManager := do
  require ((m.protectedModules module).isProtected = true) "Module not protected"
  let m := m.setProtectedModule module fun p =>
    { isProtected := false
      authorizedExtensionsList := []
      authorizedExtensions := p.authorizedExtensionsList.foldl
        (fun authorized extension => Function.update authorized extension false)
        p.authorizedExtensions }
  let protectedModulesList ← AddressArrayUtils.removeStorage m.protectedModulesList module
  pure { m with protectedModulesList := protectedModulesList }

def protect (module : Address) (extensions : List Address) : Result BaseManager := do
  require ((m.protectedModules module).isProtected = false) "Module already protected"
  let m := m.setProtectedModule module fun p => { p with isProtected := true }
  let m := { m with protectedModulesList := m.protectedModulesList ++ [module] }
  pure (extensions.foldl (fun m extension => m.authorize module extension) m)

/-! ### External functions that change the manager only -/

def authorizeInitialization : Result BaseManager := do
  m.onlyMethodologist sender
  require (m.initialized = false) "Initialization authorized"
  pure { m with initialized := true }

/-- `extensionManager` is the manager that each extension names. -/
def addExtension (extensionManager : Address → Address) (extension : Address) :
    Result BaseManager := do
  m.upgradesPermitted
  m.onlyOperator sender
  require (m.isExtension extension = false) "Extension already exists"
  require (extensionManager extension = m.self) "Extension manager invalid"
  pure (m.pushExtension extension)

def removeExtension (extension : Address) : Result BaseManager := do
  m.onlyOperator sender
  require (m.isExtension extension = true) "Extension does not exist"
  require (m.isAuthorizedExtension extension = false) "Extension used by protected module"
  let extensions ← AddressArrayUtils.removeStorage m.extensions extension
  pure { m with
    extensions := extensions
    isExtension := Function.update m.isExtension extension false }

def authorizeExtension (module extension : Address) : Result BaseManager := do
  require ((m.protectedModules module).isProtected = true) "Module not protected"
  require ((m.protectedModules module).authorizedExtensions extension = false)
    "Extension already authorized"
  pure (m.authorize module extension)

def revokeExtensionAuthorization (module extension : Address) : Result BaseManager := do
  require ((m.protectedModules module).isProtected = true) "Module not protected"
  require (m.isExtension extension = true) "Extension does not exist"
  require ((m.protectedModules module).authorizedExtensions extension = true)
    "Extension not authorized"
  let authorizedExtensionsList ←
    AddressArrayUtils.removeStorage (m.protectedModules module).authorizedExtensionsList extension
  pure (m.setProtectedModule module fun p =>
    { p with
      authorizedExtensions := Function.update p.authorizedExtensions extension false
      authorizedExtensionsList := authorizedExtensionsList })

def unProtectModule (module : Address) : Result BaseManager := do
  m.onlyMethodologist sender
  m.unProtect module

def resolveEmergency : Result BaseManager := do
  m.onlyMethodologist sender
  m.onlyEmergency
  pure { m with emergencies := m.emergencies - 1 }

def setMethodologist (newMethodologist : Address) : Result BaseManager := do
  m.onlyMethodologist sender
  pure { m with methodologist := newMethodologist }

def setOperator (newOperator : Address) : Result BaseManager := do
  m.onlyOperator sender
  pure { m with operator := newOperator }

def getNonCaller : Address := if sender = m.operator then m.methodologist else m.operator

/-- An extension has the manager call a module. -/
def interactManager {σ : Type} (module : Address) (call : Result σ) : Result σ := do
  m.onlyExtension sender
  require (m.initialized = true) "Manager not initialized"
  require (module ≠ m.setToken) "Extensions cannot call SetToken"
  require (m.senderAuthorizedForModule sender module = true) "Extension not authorized for module"
  call

/-- An extension that may have the manager call a module. -/
structure Permits (extension module : Address) : Prop where
  isExtension : m.isExtension extension = true
  initialized : m.initialized = true
  notSetToken : module ≠ m.setToken
  authorized : m.senderAuthorizedForModule extension module = true

instance (extension module : Address) : Decidable (m.Permits extension module) :=
  decidable_of_iff (m.isExtension extension = true ∧ m.initialized = true ∧ module ≠ m.setToken ∧
      m.senderAuthorizedForModule extension module = true)
    ⟨fun h => ⟨h.1, h.2.1, h.2.2.1, h.2.2.2⟩,
      fun h => ⟨h.isExtension, h.initialized, h.notSetToken, h.authorized⟩⟩

theorem interactManager_eq_ok {σ : Type} {extension module : Address} {call : Result σ} {s : σ} :
    m.interactManager extension module call = .ok s ↔ m.Permits extension module ∧ call = .ok s := by
  simp only [interactManager, onlyExtension, bind_eq_ok, require_eq_ok, exists_const]
  constructor
  · rintro ⟨hextension, hinitialized, hne, hauthorized, hcall⟩
    exact ⟨⟨hextension, hinitialized, hne, hauthorized⟩, hcall⟩
  · rintro ⟨⟨hextension, hinitialized, hne, hauthorized⟩, hcall⟩
    exact ⟨hextension, hinitialized, hne, hauthorized, hcall⟩

end BaseManager

/-! ### External functions that change the SetToken too -/

structure ManagerWorld where
  manager : BaseManager
  setToken : SetToken

namespace ManagerWorld
variable (w : ManagerWorld) (sender : Address)

def callManager (call : BaseManager → Result BaseManager) : Result ManagerWorld := do
  let m ← call w.manager
  pure { w with manager := m }

def callSetToken (call : SetToken → Result SetToken) : Result ManagerWorld := do
  let s ← call w.setToken
  pure { w with setToken := s }

/-- What a module does when the SetToken removes it, by module. -/
abbrev RemoveCallback := Address → SetToken → Result SetToken

/-- The manager is the SetToken's caller. -/
def removeFromSetToken (callback : RemoveCallback) (module : Address) : Result ManagerWorld :=
  w.callSetToken fun s => s.removeModule w.manager.self (callback module) module

def addToSetToken (module : Address) : Result ManagerWorld :=
  w.callSetToken fun s => s.addModule w.manager.self module

def addModule (module : Address) : Result ManagerWorld := do
  w.manager.upgradesPermitted
  w.manager.onlyOperator sender
  w.addToSetToken module

def removeModule (callback : RemoveCallback) (module : Address) : Result ManagerWorld := do
  w.manager.onlyOperator sender
  require ((w.manager.protectedModules module).isProtected = false) "Module protected"
  w.removeFromSetToken callback module

def emergencyRemoveProtectedModule (callback : RemoveCallback) (module : Address) :
    Result ManagerWorld := do
  w.manager.onlyOperator sender
  let w ← w.callManager (·.unProtect module)
  let w ← w.removeFromSetToken callback module
  w.callManager fun m => pure { m with emergencies := (m.emergencies + 1) % uintBound }

def protectModule (module : Address) (extensions : List Address) : Result ManagerWorld := do
  w.manager.upgradesPermitted
  w.manager.onlyOperator sender
  require (AddressArrayUtils.contains w.setToken.modules module = true) "Module not added yet"
  w.callManager (·.protect module extensions)

/-- What a mutual upgrade does once both parties have called it. -/
def upgrade (callback : RemoveCallback) : Upgrade → Result ManagerWorld
  | .setManager newManager => do
    require (newManager ≠ 0) "Zero address not valid"
    w.callSetToken fun s => s.setManager w.manager.self newManager
  | .authorizeExtension module extension => w.callManager (·.authorizeExtension module extension)
  | .revokeExtensionAuthorization module extension =>
    w.callManager (·.revokeExtensionAuthorization module extension)
  | .replaceProtectedModule oldModule newModule newExtensions => do
    let w ← w.callManager (·.unProtect oldModule)
    let w ← w.removeFromSetToken callback oldModule
    let w ← w.addToSetToken newModule
    w.callManager (·.protect newModule newExtensions)
  | .emergencyReplaceProtectedModule module extensions => do
    w.manager.onlyEmergency
    let w ← w.addToSetToken module
    let w ← w.callManager (·.protect module extensions)
    w.callManager fun m => pure { m with emergencies := m.emergencies - 1 }

/-- The first of the two calls is recorded, the second carried out. -/
def mutualUpgrade (callback : RemoveCallback) (u : Upgrade) : Result ManagerWorld := do
  require (sender = w.manager.operator ∨ sender = w.manager.methodologist)
    "Must be authorized address"
  let nonCaller := w.manager.getNonCaller sender
  if w.manager.mutualUpgrades (u, nonCaller) = false then
    w.callManager fun m =>
      pure { m with mutualUpgrades := Function.update m.mutualUpgrades (u, sender) true }
  else
    let w ← w.callManager fun m =>
      pure { m with mutualUpgrades := Function.update m.mutualUpgrades (u, nonCaller) false }
    w.upgrade callback u

end ManagerWorld

end IndexProtocol
