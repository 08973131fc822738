import IndexProtocol.ArrayUtils
import Mathlib.Logic.Function.Basic

/-! The Controller: what it approves, and the fees it sets. -/
namespace IndexProtocol
open Evm

structure Controller where
  isInitialized : Bool
  isSet : Address → Bool
  isFactory : Address → Bool
  isModule : Address → Bool
  /-- Percentage of each fee type of each module, in precise units. -/
  fees : Address → Nat → Nat
  feeRecipient : Address
  /-- The integration registry: the adapter of each name of each module, or 0. -/
  integrationAdapter : Address → String → Address

namespace Controller

/-- Factory only. Adds a newly deployed SetToken. -/
def addSet (controller : Controller) (sender setToken : Address) : Result Controller := do
  require (controller.isInitialized = true) "Contract must be initialized."
  require (controller.isFactory sender = true) "Only valid factories can call"
  require (controller.isSet setToken = false) "Set already exists"
  pure { controller with isSet := Function.update controller.isSet setToken true }

end Controller

end IndexProtocol
