import IndexProtocol.World

/-! What the modules check before they act. `module` is the module's own address. -/
namespace IndexProtocol
open Evm

namespace ModuleBase
variable (s : SetToken) (module : Address)

def isSetManager (toCheck : Address) : Bool := s.manager == toCheck

def isSetValidAndInitialized : Bool := s.controller.isSet s.self && s.isInitializedModule module

def isSetPendingInitialization : Bool := s.isPendingModule module

def validateOnlySetManager (caller : Address) : Result Unit :=
  require (isSetManager s caller = true) "Must be the SetToken manager"

def validateOnlyValidAndInitializedSet : Result Unit :=
  require (isSetValidAndInitialized s module = true) "Must be a valid and initialized SetToken"

def validateOnlyManagerAndValidSet (caller : Address) : Result Unit := do
  require (isSetManager s caller = true) "Must be the SetToken manager"
  require (isSetValidAndInitialized s module = true) "Must be a valid and initialized SetToken"

def validateOnlyValidAndPendingSet : Result Unit := do
  require (s.controller.isSet s.self = true) "Must be controller-enabled SetToken"
  require (isSetPendingInitialization s module = true) "Must be pending initialization"

/-- The fee for a quantity, of one fee type of the module. -/
def getModuleFee (feeIndex quantity : Nat) : Result Nat :=
  PreciseUnitMath.preciseMul quantity (s.controller.fees module feeIndex)

/-- The adapter of a name for this module. -/
def getAndValidateAdapter (integrationName : String) : Result Address := do
  let adapter := s.controller.integrationAdapter module integrationName
  require (adapter ≠ 0) "Must be valid adapter"
  pure adapter

end ModuleBase

end IndexProtocol
