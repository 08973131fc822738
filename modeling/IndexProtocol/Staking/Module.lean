import IndexProtocol.Trading.TradeModule

/-! The StakingModule: components of a SetToken that are staked in other contracts.

What is staked of a component leaves its default position, and is an external position of this
module. The SetToken knows only the sum; the module records the units of each staking contract, so
that it can stake and unstake as shares are made and redeemed. `module` is this module's address,
`adapters` are the staking adapters by address, `nameHash` is the hash of a name, and `call` is what
a call of another contract by the SetToken does. No call re-enters the module. -/
namespace IndexProtocol
open Evm PreciseUnitMath ModuleBase

namespace StakingModule

structure StakingPosition where
  adapterHash : BitVec 256
  componentPositionUnits : Nat

def StakingPosition.empty : StakingPosition := ⟨0, 0⟩

/-- What the module keeps for the SetToken of one component. -/
structure ComponentPositions where
  stakingContracts : List Address
  positions : Address → StakingPosition

def ComponentPositions.empty : ComponentPositions := ⟨[], fun _ => .empty⟩

/-- The module's positions, its adapters in the integration registry by the hash of their names, and
the state of other contracts. -/
structure State (χ : Type) where
  stakingPositions : Address → ComponentPositions
  integrations : BitVec 256 → Address
  others : χ

structure StakingAdapter where
  getSpenderAddress : (stakingContract : Address) → Result Address
  /-- The contract to call, with the value and the data of the call. -/
  getStakeCallData : (stakingContract : Address) → (notionalAmount : Nat) →
    Result (Address × Nat × List UInt8)
  getUnstakeCallData : (stakingContract : Address) → (notionalAmount : Nat) →
    Result (Address × Nat × List UInt8)

section Module
variable {χ : Type} (adapters : Address → StakingAdapter) (nameHash : String → BitVec 256)
  (call : Address → Nat → List UInt8 → World (State χ) → Result (World (State χ)))
  (module : Address) (w : World (State χ))

def getStakingContracts (component : Address) : List Address :=
  (w.rest.stakingPositions component).stakingContracts

def getStakingPosition (component stakeContract : Address) : StakingPosition :=
  (w.rest.stakingPositions component).positions stakeContract

def getStakingPositionUnit (component stakeContract : Address) : Nat :=
  (getStakingPosition w component stakeContract).componentPositionUnits

def hasStakingPosition (component stakeContract : Address) : Bool :=
  AddressArrayUtils.contains (getStakingContracts w component) stakeContract

/-- Writes what the module keeps of a component. -/
def withPositions (component : Address) (p : ComponentPositions) : World (State χ) :=
  { w with rest := { w.rest with
    stakingPositions := Function.update w.rest.stakingPositions component p } }

def getAndValidateAdapterWithHash (integrationHash : BitVec 256) : Result Address := do
  let adapter := w.rest.integrations integrationHash
  require (adapter ≠ 0) "Must be valid adapter"
  pure adapter

def getAndValidateAdapter (integrationName : String) : Result Address :=
  getAndValidateAdapterWithHash w (nameHash integrationName)

/-! ### Staking contracts -/

/-- Stakes units of a component for a quantity of shares. -/
def stakeNotional (stakeContract component : Address) (adapter : StakingAdapter)
    (componentPositionUnits setTokenStakeQuantity : Nat) : Result (World (State χ)) := do
  let notionalStakeQuantity ←
    Position.getDefaultTotalNotional setTokenStakeQuantity componentPositionUnits
  let spender ← adapter.getSpenderAddress stakeContract
  let w ← Invoke.invokeApprove w module component spender notionalStakeQuantity
  let (target, callValue, methodData) ←
    adapter.getStakeCallData stakeContract notionalStakeQuantity
  w.invoke module (call target callValue methodData)

/-- Unstakes units of a component for a quantity of shares, which the SetToken has to receive. -/
def unstakeNotional (stakeContract component : Address) (adapter : StakingAdapter)
    (componentPositionUnits setTokenUnstakeQuantity : Nat) : Result (World (State χ)) := do
  let preActionBalance := w.balance component
  let notionalUnstakeQuantity ←
    Position.getDefaultTotalNotional setTokenUnstakeQuantity componentPositionUnits
  let (target, callValue, methodData) ←
    adapter.getUnstakeCallData stakeContract notionalUnstakeQuantity
  let w ← w.invoke module (call target callValue methodData)
  let postActionBalance := w.balance component
  let expected ← SafeMath.add preActionBalance notionalUnstakeQuantity
  require (expected ≤ postActionBalance) "Not enough tokens returned from stake contract"
  pure w

/-! ### Records -/

/-- The record of the staking contract grows, or is made. -/
def recordStake (stakeContract component : Address) (adapterName : String)
    (componentPositionUnits : Nat) : Result (World (State χ)) := do
  let p := w.rest.stakingPositions component
  if hasStakingPosition w component stakeContract = true then
    let units ← SafeMath.add componentPositionUnits (getStakingPositionUnit w component stakeContract)
    pure (withPositions w component { p with
      positions := Function.update p.positions stakeContract
        { p.positions stakeContract with componentPositionUnits := units } })
  else
    pure (withPositions w component
      ⟨p.stakingContracts ++ [stakeContract], Function.update p.positions stakeContract
        ⟨nameHash adapterName, componentPositionUnits⟩⟩)

/-- The record of the staking contract shrinks, or is deleted with its last unit. -/
def recordUnstake (stakeContract component : Address) (componentPositionUnits : Nat) :
    Result (World (State χ)) := do
  let p := w.rest.stakingPositions component
  let remainingPositionUnits ←
    SafeMath.sub (getStakingPositionUnit w component stakeContract) componentPositionUnits
  if 0 < remainingPositionUnits then
    pure (withPositions w component { p with
      positions := Function.update p.positions stakeContract
        { p.positions stakeContract with componentPositionUnits := remainingPositionUnits } })
  else
    let stakingContracts ← AddressArrayUtils.remove (getStakingContracts w component) stakeContract
    pure (withPositions w component
      ⟨stakingContracts, Function.update p.positions stakeContract .empty⟩)

/-- Moves units from the default position of a component to the external one. -/
def moveToExternal (s : SetToken) (component : Address) (componentPositionUnits : Nat) :
    Result SetToken := do
  let defaultUnit ← s.getDefaultPositionRealUnit component
  let defaultTokenUnit ← SafeCast.toUint256 defaultUnit
  let newDefaultTokenUnit ← SafeMath.sub defaultTokenUnit componentPositionUnits
  let s ← Position.editDefaultPosition s module component newDefaultTokenUnit
  let externalUnit ← s.getExternalPositionRealUnit component module
  let units ← SafeCast.toInt256 componentPositionUnits
  let newExternalTokenUnit ← SignedSafeMath.add externalUnit units
  Position.editExternalPosition s module component module newExternalTokenUnit []

/-- Moves units from the external position of a component to the default one. -/
def moveToDefault (s : SetToken) (component : Address) (componentPositionUnits : Nat) :
    Result SetToken := do
  let defaultUnit ← s.getDefaultPositionRealUnit component
  let defaultTokenUnit ← SafeCast.toUint256 defaultUnit
  let newTokenUnit ← SafeMath.add defaultTokenUnit componentPositionUnits
  let s ← Position.editDefaultPosition s module component newTokenUnit
  let externalUnit ← s.getExternalPositionRealUnit component module
  let units ← SafeCast.toInt256 componentPositionUnits
  let newExternalTokenUnit ← SignedSafeMath.sub externalUnit units
  Position.editExternalPosition s module component module newExternalTokenUnit []

def updateStakeState (stakeContract component : Address) (adapterName : String)
    (componentPositionUnits : Nat) : Result (World (State χ)) := do
  let w ← recordStake nameHash w stakeContract component adapterName componentPositionUnits
  w.callSetToken (moveToExternal module · component componentPositionUnits)

def updateUnstakeState (stakeContract component : Address) (componentPositionUnits : Nat) :
    Result (World (State χ)) := do
  let w ← recordUnstake w stakeContract component componentPositionUnits
  w.callSetToken (moveToDefault module · component componentPositionUnits)

/-! ### Calls of the manager -/

def stake (sender stakeContract component : Address) (adapterName : String)
    (componentPositionUnits : Nat) : Result (World (State χ)) := do
  validateOnlyManagerAndValidSet w.setToken module sender
  let sufficient ←
    Position.hasSufficientDefaultUnits w.setToken component componentPositionUnits
  require (sufficient = true) "Not enough component to stake"
  let adapter ← getAndValidateAdapter nameHash w adapterName
  let w ← stakeNotional call module w stakeContract component (adapters adapter)
    componentPositionUnits w.setToken.totalSupply
  updateStakeState nameHash module w stakeContract component adapterName componentPositionUnits

def unstake (sender stakeContract component : Address) (adapterName : String)
    (componentPositionUnits : Nat) : Result (World (State χ)) := do
  validateOnlyManagerAndValidSet w.setToken module sender
  require (componentPositionUnits ≤ getStakingPositionUnit w component stakeContract)
    "Not enough component tokens staked"
  let adapter ← getAndValidateAdapter nameHash w adapterName
  let w ← unstakeNotional call module w stakeContract component (adapters adapter)
    componentPositionUnits w.setToken.totalSupply
  updateUnstakeState module w stakeContract component componentPositionUnits

/-- The module's `initialize`. -/
def initializeSet (sender : Address) : Result (World (State χ)) := do
  validateOnlySetManager w.setToken sender
  validateOnlyValidAndPendingSet w.setToken module
  w.callSetToken (·.initializeModule module)

/-! ### Calls of other modules -/

def componentIssueHook (sender : Address) (setTokenQuantity : Nat) (component : Address) :
    Result (World (State χ)) := do
  w.setToken.validateOnlyModule sender
  runs (fun w stakingContract => do
      let stakingPosition := getStakingPosition w component stakingContract
      let adapter ← getAndValidateAdapterWithHash w stakingPosition.adapterHash
      stakeNotional call module w stakingContract component (adapters adapter)
        stakingPosition.componentPositionUnits setTokenQuantity)
    w (getStakingContracts w component)

def componentRedeemHook (sender : Address) (setTokenQuantity : Nat) (component : Address) :
    Result (World (State χ)) := do
  w.setToken.validateOnlyModule sender
  runs (fun w stakingContract => do
      let stakingPosition := getStakingPosition w component stakingContract
      let adapter ← getAndValidateAdapterWithHash w stakingPosition.adapterHash
      unstakeNotional call module w stakingContract component (adapters adapter)
        stakingPosition.componentPositionUnits setTokenQuantity)
    w (getStakingContracts w component)

/-- What the SetToken has the module do when it is removed. -/
def removeModule : Result Unit :=
  runs (fun _ component =>
      require ((getStakingContracts w component).length = 0) "Open positions must be closed")
    () w.setToken.components

/-- The removal of the module, as the SetToken does it. -/
def removeFromSet (sender : Address) : Result (World (State χ)) := do
  w.setToken.validateRemoveModule sender module
  removeModule w
  w.callSetToken (·.finishRemoveModule module)

end Module

end StakingModule

end IndexProtocol
