import IndexProtocol.SetToken.Privileged

/-! The Position library: how modules edit the positions of a SetToken.

The edits keep the array of components and the arrays of position modules in
step with the units. `sender` is the module in whose name the library runs. -/
namespace IndexProtocol
open Evm PreciseUnitMath

namespace Position
variable (s : SetToken) (sender component : Address)

def hasDefaultPosition : Result Bool := do
  let unit ← s.getDefaultPositionRealUnit component
  pure (decide (0 < unit))

def hasExternalPosition : Bool := decide (0 < (s.externalPositionModules component).length)

/-- The component starts or stops being tracked with its default position. -/
def trackDefaultPosition (isPositionFound : Bool) (newUnit : Nat) : Result SetToken :=
  if isPositionFound = false ∧ 0 < newUnit then
    if hasExternalPosition s component = false then s.addComponent sender component else pure s
  else if isPositionFound = true ∧ newUnit = 0 then
    if hasExternalPosition s component = false then s.removeComponent sender component else pure s
  else pure s

def editDefaultPosition (newUnit : Nat) : Result SetToken := do
  let isPositionFound ← hasDefaultPosition s component
  let s ← trackDefaultPosition s sender component isPositionFound newUnit
  let realUnit ← SafeCast.toInt256 newUnit
  s.editDefaultPositionUnit sender component realUnit

/-- The component and the module start being tracked, where they are not. -/
def trackExternalPosition (module : Address) : Result SetToken :=
  if s.isComponent component = false then do
    let s ← s.addComponent sender component
    s.addExternalPositionModule sender component module
  else if s.isExternalPositionModule component module = false then
    s.addExternalPositionModule sender component module
  else pure s

/-- The component stops being tracked with its last external position. -/
def untrackComponent (module : Address) (defaultUnit : Int) : Result SetToken := do
  let positionModules := s.externalPositionModules component
  if defaultUnit = 0 ∧ positionModules.length = 1 then
    require (positionModules[0]? = some module) "External positions must be 0 to remove component"
    s.removeComponent sender component
  else pure s

/-- Opens or updates the external position, or closes it where the new unit is zero. -/
def editExternalPosition (module : Address) (newUnit : Int) (data : List UInt8) :
    Result SetToken := do
  if newUnit ≠ 0 then
    let s ← trackExternalPosition s sender component module
    let s ← s.editExternalPositionUnit sender component module newUnit
    s.editExternalPositionData sender component module data
  else
    require (data.length = 0) "Passed data must be null"
    let realUnit ← s.getExternalPositionRealUnit component module
    if realUnit ≠ 0 then
      let defaultUnit ← s.getDefaultPositionRealUnit component
      let s ← untrackComponent s sender component module defaultUnit
      s.removeExternalPositionModule sender component module
    else pure s

/-! ### Amounts and units -/

def getDefaultTotalNotional (setTokenSupply positionUnit : Nat) : Result Nat :=
  preciseMul setTokenSupply positionUnit

def getDefaultPositionUnit (setTokenSupply totalNotional : Nat) : Result Nat :=
  preciseDiv totalNotional setTokenSupply

/-- The unit after an action, leaving out what was in the SetToken untracked before it. -/
def calculateDefaultEditPositionUnit
    (setTokenSupply preTotalNotional postTotalNotional prePositionUnit : Nat) : Result Nat := do
  let tracked ← preciseMul prePositionUnit setTokenSupply
  let airdroppedAmount ← SafeMath.sub preTotalNotional tracked
  let notional ← SafeMath.sub postTotalNotional airdroppedAmount
  preciseDiv notional setTokenSupply

/-- Edits the default unit of a component from the SetToken's balance, before and now. -/
def calculateAndEditDefaultPosition (currentBalance setTotalSupply componentPreviousBalance : Nat) :
    Result SetToken := do
  let defaultUnit ← s.getDefaultPositionRealUnit component
  let positionUnit ← SafeCast.toUint256 defaultUnit
  let newTokenUnit ←
    (if 0 < currentBalance then
      calculateDefaultEditPositionUnit setTotalSupply componentPreviousBalance currentBalance
        positionUnit
    else pure 0)
  editDefaultPosition s sender component newTokenUnit

end Position

end IndexProtocol
