import IndexProtocol.ArrayUtils
import Mathlib.Logic.Function.Basic

/-! The base of global extensions: one extension for many SetTokens.

An extension knows the DelegatedManager of each SetToken that it serves, and has
it call modules. The managers themselves are a parameter. -/
namespace IndexProtocol
open Evm

/-- The DelegatedManagers and their registry, as an extension calls them. A call of an address
without a manager reverts. -/
structure DelegatedManagers (ω κ : Type) where
  owner : Address → ω → Result Address
  setToken : Address → ω → Result Address
  operatorAllowlist : Address → Address → ω → Result Bool
  isAllowedAsset : Address → Address → ω → Result Bool
  /-- The manager is enabled on the ManagerCore. -/
  isManager : Address → ω → Bool
  initializeExtension : Address → ω → Result ω
  /-- The manager makes a call of a module, if the module returns. -/
  interactManager : Address → κ → ω → Result ω

namespace BaseGlobalExtension
variable {ω κ : Type} (managers : DelegatedManagers ω κ) (setManagers : Address → Address) (w : ω)
  (sender : Address)

def onlyOperator (setToken : Address) : Result Unit := do
  let allowed ← managers.operatorAllowlist (setManagers setToken) sender w
  require (allowed = true) "Must be approved operator"

def onlyOwnerAndValidManager (delegatedManager : Address) : Result Unit := do
  let owner ← managers.owner delegatedManager w
  require (sender = owner) "Must be owner"
  require (managers.isManager delegatedManager w = true) "Must be ManagerCore-enabled manager"

/-- The manager of a SetToken is written, and told. -/
def initializeExtension (delegatedManager : Address) : Result ((Address → Address) × ω) := do
  onlyOwnerAndValidManager managers w sender delegatedManager
  let setToken ← managers.setToken delegatedManager w
  let w ← managers.initializeExtension delegatedManager w
  pure (Function.update setManagers setToken delegatedManager, w)

/-- Called by the manager. -/
def removeExtension : Result (Address → Address) := do
  let setToken ← managers.setToken sender w
  require (sender = setManagers setToken) "Must be Manager"
  pure (Function.update setManagers setToken 0)

end BaseGlobalExtension

end IndexProtocol
