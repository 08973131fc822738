import IndexProtocol.Fees.Streaming
import IndexProtocol.Manager.Upgrades

/-! The FeeSplitExtension: fees that two parties change, with notice.

Every method here is a mutual upgrade of the manager's operator and methodologist,
and the three that change a fee are time locked beneath it. A call therefore gets
to one of three stages: the sender is registered, the time lock is started, or
the method is carried out. The contracts around the extension are a parameter. -/
namespace IndexProtocol
open Evm PreciseUnitMath

namespace FeeSplitExtension

/-- The methods that the two parties decide. -/
inductive Method where
  | initializeIssuanceModule (maxManagerFee managerIssueFee managerRedeemFee : Nat)
    (feeRecipient managerIssuanceHook : Address)
  | initializeStreamingFeeModule (settings : FeeState)
  | updateStreamingFee (newFee : Nat)
  | updateIssueFee (newFee : Nat)
  | updateRedeemFee (newFee : Nat)
  | updateFeeRecipient (newFeeRecipient : Address)
  | updateFeeSplit (newFeeSplit : Nat)
  deriving DecidableEq, Repr

structure Calldata where
  method : Method
  /-- Bytes after the arguments, which the decoder ignores and the hash does not. -/
  trailing : List UInt8
  deriving DecidableEq, Repr

/-- The calls of modules, as the extension encodes them. -/
inductive ModuleCall where
  | initializeIssuance (setToken : Address) (maxManagerFee managerIssueFee managerRedeemFee : Nat)
    (feeRecipient managerIssuanceHook : Address)
  | initializeStreamingFee (setToken : Address) (settings : FeeState)
  | updateStreamingFee (setToken : Address) (newFee : Nat)
  | updateIssueFee (setToken : Address) (newFee : Nat)
  | updateRedeemFee (setToken : Address) (newFee : Nat)
  | updateFeeRecipient (setToken newFeeRecipient : Address)
  deriving DecidableEq, Repr

inductive Stage where
  | registered
  | delayed
  | executed
  deriving DecidableEq, Repr

end FeeSplitExtension

structure FeeSplitExtension where
  streamingFeeModule : Address
  issuanceModule : Address
  operatorFeeSplit : Nat
  operatorFeeRecipient : Address
  mutualUpgrades : Registrations FeeSplitExtension.Calldata
  lock : TimeLockUpgrade FeeSplitExtension.Calldata

structure FeeSplitWorld (ω : Type) where
  extension : FeeSplitExtension
  others : ω

namespace FeeSplitExtension
variable {ω : Type}

/-- The manager, the modules and the SetToken, as the extension calls them. -/
structure Surroundings (ω : Type) where
  operator : ω → Address
  methodologist : ω → Address
  setToken : ω → Address
  interactManager : Address → ModuleCall → ω → Result ω
  accrueFee : ω → Result ω
  /-- The SetTokens that the extension holds. -/
  collected : ω → Nat
  transfer : Address → Nat → ω → Result ω

def construct (streamingFeeModule issuanceModule : Address) (operatorFeeSplit : Nat)
    (operatorFeeRecipient owner : Address) : FeeSplitExtension where
  streamingFeeModule := streamingFeeModule
  issuanceModule := issuanceModule
  operatorFeeSplit := operatorFeeSplit
  operatorFeeRecipient := operatorFeeRecipient
  mutualUpgrades := fun _ => false
  lock := TimeLockUpgrade.construct owner

section Methods
variable (e : Surroundings ω) (w : FeeSplitWorld ω) (sender : Address) (timestamp : Nat)

def mutualUpgradesSlot : Slot (FeeSplitWorld ω × Stage) (Registrations Calldata) where
  read s := s.1.extension.mutualUpgrades
  write s registered :=
    ({ s.1 with extension := { s.1.extension with mutualUpgrades := registered } }, s.2)

def lockSlot : Slot (FeeSplitWorld ω × Stage) (TimeLockUpgrade Calldata) where
  read s := s.1.extension.lock
  write s lock := ({ s.1 with extension := { s.1.extension with lock := lock } }, s.2)

/-- The body of a method, which is its last stage. -/
def execute (body : FeeSplitWorld ω → Result (FeeSplitWorld ω)) (s : FeeSplitWorld ω × Stage) :
    Result (FeeSplitWorld ω × Stage) := do
  let w ← body s.1
  pure (w, .executed)

/-- Under `mutualUpgrade` alone. -/
def mutualOnly (data : Calldata) (body : FeeSplitWorld ω → Result (FeeSplitWorld ω)) :
    Result (FeeSplitWorld ω × Stage) :=
  MutualUpgrade.mutualUpgrade mutualUpgradesSlot (w, .registered) (e.operator w.others)
    (e.methodologist w.others) sender data (execute body)

/-- Under `mutualUpgrade`, and `timeLockUpgrade` beneath it. -/
def mutualTimeLocked (data : Calldata) (body : FeeSplitWorld ω → Result (FeeSplitWorld ω)) :
    Result (FeeSplitWorld ω × Stage) :=
  MutualUpgrade.mutualUpgrade mutualUpgradesSlot (w, .registered) (e.operator w.others)
    (e.methodologist w.others) sender data fun s =>
      TimeLockUpgrade.timeLockUpgrade lockSlot (s.1, .delayed) timestamp data (execute body)

def invokeManager (module : Address) (call : ModuleCall) : Result (FeeSplitWorld ω) := do
  let others ← e.interactManager module call w.others
  pure { w with others := others }

def accrueFeesAndDistribute : Result (FeeSplitWorld ω) := do
  let others ← e.accrueFee w.others
  let totalFees := e.collected others
  let methodologist := e.methodologist others
  let operatorTake ← preciseMul totalFees w.extension.operatorFeeSplit
  let methodologistTake ← SafeMath.sub totalFees operatorTake
  let others ← (if 0 < operatorTake then
    e.transfer w.extension.operatorFeeRecipient operatorTake others else pure others)
  let others ← (if 0 < methodologistTake then
    e.transfer methodologist methodologistTake others else pure others)
  pure { w with others := others }

variable (trailing : List UInt8)

def initializeIssuanceModule (maxManagerFee managerIssueFee managerRedeemFee : Nat)
    (feeRecipient managerIssuanceHook : Address) : Result (FeeSplitWorld ω × Stage) :=
  mutualOnly e w sender ⟨.initializeIssuanceModule maxManagerFee managerIssueFee managerRedeemFee
      feeRecipient managerIssuanceHook, trailing⟩ fun w =>
    invokeManager e w w.extension.issuanceModule (.initializeIssuance (e.setToken w.others)
      maxManagerFee managerIssueFee managerRedeemFee feeRecipient managerIssuanceHook)

def initializeStreamingFeeModule (settings : FeeState) : Result (FeeSplitWorld ω × Stage) :=
  mutualOnly e w sender ⟨.initializeStreamingFeeModule settings, trailing⟩ fun w =>
    invokeManager e w w.extension.streamingFeeModule
      (.initializeStreamingFee (e.setToken w.others) settings)

def updateStreamingFee (newFee : Nat) : Result (FeeSplitWorld ω × Stage) :=
  mutualTimeLocked e w sender timestamp ⟨.updateStreamingFee newFee, trailing⟩ fun w =>
    invokeManager e w w.extension.streamingFeeModule
      (.updateStreamingFee (e.setToken w.others) newFee)

def updateIssueFee (newFee : Nat) : Result (FeeSplitWorld ω × Stage) :=
  mutualTimeLocked e w sender timestamp ⟨.updateIssueFee newFee, trailing⟩ fun w =>
    invokeManager e w w.extension.issuanceModule (.updateIssueFee (e.setToken w.others) newFee)

def updateRedeemFee (newFee : Nat) : Result (FeeSplitWorld ω × Stage) :=
  mutualTimeLocked e w sender timestamp ⟨.updateRedeemFee newFee, trailing⟩ fun w =>
    invokeManager e w w.extension.issuanceModule (.updateRedeemFee (e.setToken w.others) newFee)

def updateFeeRecipient (newFeeRecipient : Address) : Result (FeeSplitWorld ω × Stage) :=
  mutualOnly e w sender ⟨.updateFeeRecipient newFeeRecipient, trailing⟩ fun w => do
    let call := ModuleCall.updateFeeRecipient (e.setToken w.others) newFeeRecipient
    let w ← invokeManager e w w.extension.streamingFeeModule call
    invokeManager e w w.extension.issuanceModule call

def updateFeeSplit (newFeeSplit : Nat) : Result (FeeSplitWorld ω × Stage) :=
  mutualOnly e w sender ⟨.updateFeeSplit newFeeSplit, trailing⟩ fun w => do
    require (newFeeSplit ≤ preciseUnit) "Fee must be less than 100%"
    let w ← accrueFeesAndDistribute e w
    pure { w with extension := { w.extension with operatorFeeSplit := newFeeSplit } }

/-- The call of the method that the call data names. -/
def call (data : Calldata) : Result (FeeSplitWorld ω × Stage) :=
  match data.method with
  | .initializeIssuanceModule maxManagerFee managerIssueFee managerRedeemFee feeRecipient hook =>
    initializeIssuanceModule e w sender data.trailing maxManagerFee managerIssueFee
      managerRedeemFee feeRecipient hook
  | .initializeStreamingFeeModule settings =>
    initializeStreamingFeeModule e w sender data.trailing settings
  | .updateStreamingFee newFee => updateStreamingFee e w sender timestamp data.trailing newFee
  | .updateIssueFee newFee => updateIssueFee e w sender timestamp data.trailing newFee
  | .updateRedeemFee newFee => updateRedeemFee e w sender timestamp data.trailing newFee
  | .updateFeeRecipient newFeeRecipient =>
    updateFeeRecipient e w sender data.trailing newFeeRecipient
  | .updateFeeSplit newFeeSplit => updateFeeSplit e w sender data.trailing newFeeSplit

def updateOperatorFeeRecipient (newOperatorFeeRecipient : Address) :
    Result (FeeSplitWorld ω) := do
  require (sender = e.operator w.others) "Must be operator"
  require (newOperatorFeeRecipient ≠ 0) "Zero address not valid"
  pure { w with
    extension := { w.extension with operatorFeeRecipient := newOperatorFeeRecipient } }

/-- A function of the time lock's owner. -/
def setLock (f : TimeLockUpgrade Calldata → Result (TimeLockUpgrade Calldata)) :
    Result (FeeSplitWorld ω) := do
  let lock ← f w.extension.lock
  pure { w with extension := { w.extension with lock := lock } }

def setTimeLockPeriod (timeLockPeriod : Nat) : Result (FeeSplitWorld ω) :=
  setLock w fun lock => lock.setTimeLockPeriod sender timeLockPeriod

def transferOwnership (newOwner : Address) : Result (FeeSplitWorld ω) :=
  setLock w fun lock => do
    let owner ← Ownable.transferOwnership lock.owner sender newOwner
    pure { lock with owner := owner }

def renounceOwnership : Result (FeeSplitWorld ω) :=
  setLock w fun lock => do
    let owner ← Ownable.renounceOwnership lock.owner sender
    pure { lock with owner := owner }

end Methods

/-! ### What one call does -/

/-- The methods that are time locked. -/
def Method.isTimeLocked : Method → Bool
  | .updateStreamingFee _ | .updateIssueFee _ | .updateRedeemFee _ => true
  | _ => false

/-- A body writes neither the registrations nor the time lock. -/
def KeepsUpgrades (body : FeeSplitWorld ω → Result (FeeSplitWorld ω)) : Prop :=
  ∀ w v, body w = .ok v → v.extension.mutualUpgrades = w.extension.mutualUpgrades ∧
    v.extension.lock = w.extension.lock

variable {e : Surroundings ω} {w v : FeeSplitWorld ω} {sender : Address} {timestamp : Nat}
  {data : Calldata} {stage stage' : Stage} {body : FeeSplitWorld ω → Result (FeeSplitWorld ω)}

theorem invokeManager_keeps {module : FeeSplitWorld ω → Address}
    {call : FeeSplitWorld ω → ModuleCall} :
    KeepsUpgrades fun w => invokeManager e w (module w) (call w) := by
  intro w v h
  simp only [invokeManager, bind_eq_ok, pure_eq_ok] at h
  obtain ⟨_, _, rfl⟩ := h
  exact ⟨rfl, rfl⟩

theorem accrueFeesAndDistribute_keeps : KeepsUpgrades (accrueFeesAndDistribute e) := by
  intro w v h
  simp only [accrueFeesAndDistribute, bind_eq_ok, pure_eq_ok] at h
  obtain ⟨_, _, _, _, _, _, _, _, _, _, rfl⟩ := h
  exact ⟨rfl, rfl⟩

/-- The signer who does not call. -/
def other (e : Surroundings ω) (w : FeeSplitWorld ω) (sender : Address) : Address :=
  MutualUpgrade.getNonCaller (e.operator w.others) (e.methodologist w.others) sender

/-- The time lock of a call that the other signer registered: none, started, or over. -/
def LockStep (lock lock' : TimeLockUpgrade Calldata) (timestamp : Nat) (data : Calldata)
    (stage : Stage) : Prop :=
  (lock.timeLockPeriod = 0 ∨ data.method.isTimeLocked = false) ∧ lock' = lock ∧
      stage = .executed ∨
    lock.timeLockPeriod ≠ 0 ∧ data.method.isTimeLocked = true ∧
      (lock.timeLockedUpgrades data = 0 ∧ lock' = lock.setRegistration data timestamp ∧
          stage = .delayed ∨
        lock.timeLockedUpgrades data ≠ 0 ∧
          lock.timeLockedUpgrades data + lock.timeLockPeriod ≤ timestamp ∧
          lock' = lock.setRegistration data 0 ∧ stage = .executed)

/-- What a call does with registrations and the time lock. -/
def CallStep (e : Surroundings ω) (w v : FeeSplitWorld ω) (sender : Address) (timestamp : Nat)
    (data : Calldata) (stage : Stage) : Prop :=
  (sender = e.operator w.others ∨ sender = e.methodologist w.others) ∧
    (w.extension.mutualUpgrades (data, other e w sender) = false ∧
        v.extension.mutualUpgrades =
          Function.update w.extension.mutualUpgrades (data, sender) true ∧
        v.extension.lock = w.extension.lock ∧ stage = .registered ∨
      w.extension.mutualUpgrades (data, other e w sender) = true ∧
        v.extension.mutualUpgrades =
          Function.update w.extension.mutualUpgrades (data, other e w sender) false ∧
        LockStep w.extension.lock v.extension.lock timestamp data stage)

theorem execute_step (hbody : KeepsUpgrades body) (h : execute body (w, stage') = .ok (v, stage)) :
    v.extension.mutualUpgrades = w.extension.mutualUpgrades ∧
      v.extension.lock = w.extension.lock ∧ stage = .executed := by
  simp only [execute, bind_eq_ok, pure_eq_ok, Prod.mk.injEq] at h
  obtain ⟨_, hrun, rfl, rfl⟩ := h
  obtain ⟨hmutual, hlock⟩ := hbody _ _ hrun
  exact ⟨hmutual, hlock, rfl⟩

theorem mutualOnly_step (hbody : KeepsUpgrades body) (hfree : data.method.isTimeLocked = false)
    (h : mutualOnly e w sender data body = .ok (v, stage)) :
    CallStep e w v sender timestamp data stage := by
  simp only [mutualOnly, MutualUpgrade.mutualUpgrade, bind_eq_ok, require_eq_ok] at h
  obtain ⟨_, hsigner, h⟩ := h
  refine ⟨hsigner, ?_⟩
  cases MutualUpgrade.useOrRegister_cases h with
  | inl hmade =>
    obtain ⟨hregistered, hv⟩ := hmade
    obtain ⟨rfl, rfl⟩ := Prod.mk.inj hv
    exact .inl ⟨hregistered, rfl, rfl, rfl⟩
  | inr hused =>
    obtain ⟨hregistered, hrun⟩ := hused
    obtain ⟨hmutual, hlock, hstage⟩ := execute_step hbody hrun
    exact .inr ⟨hregistered, hmutual, .inl ⟨.inr hfree, hlock, hstage⟩⟩

theorem mutualTimeLocked_step (hbody : KeepsUpgrades body)
    (hlocked : data.method.isTimeLocked = true)
    (h : mutualTimeLocked e w sender timestamp data body = .ok (v, stage)) :
    CallStep e w v sender timestamp data stage := by
  simp only [mutualTimeLocked, MutualUpgrade.mutualUpgrade, bind_eq_ok, require_eq_ok] at h
  obtain ⟨_, hsigner, h⟩ := h
  refine ⟨hsigner, ?_⟩
  cases MutualUpgrade.useOrRegister_cases h with
  | inl hmade =>
    obtain ⟨hregistered, hv⟩ := hmade
    obtain ⟨rfl, rfl⟩ := Prod.mk.inj hv
    exact .inl ⟨hregistered, rfl, rfl, rfl⟩
  | inr hused =>
    obtain ⟨hregistered, h⟩ := hused
    refine .inr ⟨hregistered, ?_⟩
    rcases TimeLockUpgrade.timeLockUpgrade_cases h with
      ⟨hperiod, hrun⟩ | ⟨hperiod, ⟨htime, hv⟩ | ⟨htime, hready, hrun⟩⟩
    · obtain ⟨hmutual, hlock, hstage⟩ := execute_step hbody hrun
      exact ⟨hmutual, .inl ⟨.inl hperiod, hlock, hstage⟩⟩
    · obtain ⟨rfl, rfl⟩ := Prod.mk.inj hv
      exact ⟨rfl, .inr ⟨hperiod, hlocked, .inl ⟨htime, rfl, rfl⟩⟩⟩
    · obtain ⟨hmutual, hlock, hstage⟩ := execute_step hbody hrun
      exact ⟨hmutual, .inr ⟨hperiod, hlocked, .inr ⟨htime, hready, hlock, hstage⟩⟩⟩

theorem call_step (h : call e w sender timestamp data = .ok (v, stage)) :
    CallStep e w v sender timestamp data stage := by
  obtain ⟨method, trailing⟩ := data
  cases method with
  | initializeIssuanceModule => exact mutualOnly_step invokeManager_keeps rfl h
  | initializeStreamingFeeModule => exact mutualOnly_step invokeManager_keeps rfl h
  | updateStreamingFee => exact mutualTimeLocked_step invokeManager_keeps rfl h
  | updateIssueFee => exact mutualTimeLocked_step invokeManager_keeps rfl h
  | updateRedeemFee => exact mutualTimeLocked_step invokeManager_keeps rfl h
  | updateFeeRecipient =>
    refine mutualOnly_step (fun w v hbody => ?_) rfl h
    simp only [invokeManager, bind_eq_ok, pure_eq_ok] at hbody
    obtain ⟨_, ⟨_, _, rfl⟩, _, _, rfl⟩ := hbody
    exact ⟨rfl, rfl⟩
  | updateFeeSplit =>
    refine mutualOnly_step (fun w v hbody => ?_) rfl h
    simp only [bind_eq_ok, pure_eq_ok] at hbody
    obtain ⟨_, _, _, haccrue, rfl⟩ := hbody
    have hkept := accrueFeesAndDistribute_keeps _ _ haccrue
    exact ⟨hkept.1, hkept.2⟩

end FeeSplitExtension

end IndexProtocol
