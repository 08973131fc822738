import IndexProtocol.ArrayUtils
import IndexProtocol.Evm.Checked
import Mathlib.Logic.Function.Basic

/-! The modifiers of functions that two parties decide, or that time delays.

A contract inherits a modifier with its storage, so a modifier works on every
contract that has a place for that storage (`Slot`), and takes the body of the
function, which the source writes `_`. Hashes of the call data, with or without
an address, are kept as what is hashed. -/
namespace IndexProtocol
open Evm

/-- A storage variable of a contract. -/
structure Slot (σ ρ : Type) where
  read : σ → ρ
  write : σ → ρ → σ

/-! ### Owners -/

namespace Ownable

def onlyOwner (owner sender : Address) : Result Unit :=
  require (sender = owner) "Ownable: caller is not the owner"

/-- The new owner. -/
def transferOwnership (owner sender newOwner : Address) : Result Address := do
  onlyOwner owner sender
  require (newOwner ≠ 0) "Ownable: new owner is the zero address"
  pure newOwner

def renounceOwnership (owner sender : Address) : Result Address := do
  onlyOwner owner sender
  pure 0

end Ownable

/-! ### Two parties -/

/-- Which calls were registered, and by whom. -/
abbrev Registrations (δ : Type) := δ × Address → Bool

namespace MutualUpgrade
variable {σ δ : Type} [DecidableEq δ] (slot : Slot σ (Registrations δ)) (s : σ)
  (signerOne signerTwo sender : Address) (data : δ) (body : σ → Result σ)

def getNonCaller : Address := if sender = signerOne then signerTwo else signerOne

/-- Uses up the registration of the signer who does not call, or makes the sender's. -/
def useOrRegister : Result σ :=
  let registered := slot.read s
  let nonCaller := getNonCaller signerOne signerTwo sender
  if registered (data, nonCaller) = false then
    pure (slot.write s (Function.update registered (data, sender) true))
  else body (slot.write s (Function.update registered (data, nonCaller) false))

def mutualUpgrade : Result σ := do
  require (sender = signerOne ∨ sender = signerTwo) "Must be authorized address"
  useOrRegister slot s signerOne signerTwo sender data body

variable {slot s signerOne signerTwo sender data body} {t : σ}

/-- The sender's registration is made, or that of the other signer is used up and the body runs. -/
theorem useOrRegister_cases
    (h : useOrRegister slot s signerOne signerTwo sender data body = .ok t) :
    slot.read s (data, getNonCaller signerOne signerTwo sender) = false ∧
        slot.write s (Function.update (slot.read s) (data, sender) true) = t ∨
      slot.read s (data, getNonCaller signerOne signerTwo sender) = true ∧
        body (slot.write s (Function.update (slot.read s)
          (data, getNonCaller signerOne signerTwo sender) false)) = .ok t := by
  unfold useOrRegister at h
  dsimp only at h
  split_ifs at h with hregistered
  · exact .inl ⟨hregistered, pure_eq_ok.mp h⟩
  · exact .inr ⟨Bool.eq_true_of_not_eq_false hregistered, h⟩

end MutualUpgrade

namespace MutualUpgradeV2
variable {σ δ : Type} [DecidableEq δ] (slot : Slot σ (Registrations δ)) (s : σ)
  (signerOne signerTwo sender : Address) (data : δ) (body : σ → Result σ)

/-- Where the signers are one, the body runs at once, and the modifier goes on. -/
def mutualUpgrade : Result σ := do
  require (sender = signerOne ∨ sender = signerTwo) "Must be authorized address"
  let s ← (if signerOne = signerTwo then body s else pure s)
  MutualUpgrade.useOrRegister slot s signerOne signerTwo sender data body

end MutualUpgradeV2

/-! ### Time -/

structure TimeLockUpgrade (δ : Type) where
  owner : Address
  timeLockPeriod : Nat
  /-- When a call was registered, or 0. -/
  timeLockedUpgrades : δ → Nat

namespace TimeLockUpgrade
variable {σ δ : Type} [DecidableEq δ]

def construct (owner : Address) : TimeLockUpgrade δ := ⟨owner, 0, fun _ => 0⟩

def setRegistration (lock : TimeLockUpgrade δ) (data : δ) (time : Nat) : TimeLockUpgrade δ :=
  { lock with timeLockedUpgrades := Function.update lock.timeLockedUpgrades data time }

/-- Without a period the body runs at once; otherwise the first call registers the time. -/
def timeLockUpgrade (slot : Slot σ (TimeLockUpgrade δ)) (s : σ) (timestamp : Nat) (data : δ)
    (body : σ → Result σ) : Result σ :=
  let lock := slot.read s
  if lock.timeLockPeriod = 0 then body s
  else
    let registrationTime := lock.timeLockedUpgrades data
    if registrationTime = 0 then pure (slot.write s (lock.setRegistration data timestamp))
    else do
      let ready ← SafeMath.add registrationTime lock.timeLockPeriod
      require (ready ≤ timestamp) "TimeLockUpgrade: Time lock period must have elapsed."
      body (slot.write s (lock.setRegistration data 0))

/-- The body runs where there is no period or it is over, and else its time is registered. -/
theorem timeLockUpgrade_cases {slot : Slot σ (TimeLockUpgrade δ)} {s t : σ} {timestamp : Nat}
    {data : δ} {body : σ → Result σ}
    (h : timeLockUpgrade slot s timestamp data body = .ok t) :
    (slot.read s).timeLockPeriod = 0 ∧ body s = .ok t ∨
      (slot.read s).timeLockPeriod ≠ 0 ∧
        ((slot.read s).timeLockedUpgrades data = 0 ∧
            slot.write s ((slot.read s).setRegistration data timestamp) = t ∨
          (slot.read s).timeLockedUpgrades data ≠ 0 ∧
            (slot.read s).timeLockedUpgrades data + (slot.read s).timeLockPeriod ≤ timestamp ∧
            body (slot.write s ((slot.read s).setRegistration data 0)) = .ok t) := by
  unfold timeLockUpgrade at h
  dsimp only at h
  split_ifs at h with hperiod htime
  · exact .inl ⟨hperiod, h⟩
  · exact .inr ⟨hperiod, .inl ⟨htime, pure_eq_ok.mp h⟩⟩
  · simp only [bind_eq_ok, SafeMath.add_eq_ok, require_eq_ok] at h
    obtain ⟨_, ⟨_, rfl⟩, _, hready, hrun⟩ := h
    exact .inr ⟨hperiod, .inr ⟨htime, hready, hrun⟩⟩

/-- The period only grows. -/
def setTimeLockPeriod (lock : TimeLockUpgrade δ) (sender : Address) (timeLockPeriod : Nat) :
    Result (TimeLockUpgrade δ) := do
  Ownable.onlyOwner lock.owner sender
  require (lock.timeLockPeriod < timeLockPeriod)
    "TimeLockUpgrade: New period must be greater than existing"
  pure { lock with timeLockPeriod := timeLockPeriod }

end TimeLockUpgrade

end IndexProtocol
