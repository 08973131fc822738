import IndexProtocol.Airdrop.Tracking
import Mathlib.Tactic.Positivity

/-! The AirdropModule: tokens sent to a SetToken become part of its positions.

The manager lists the tokens that may be absorbed. To absorb one is to pay a fee on what the
SetToken has above the position, to the manager's recipient and the protocol, and to write
the unit anew for what is left. `module` is this module's address. -/
namespace IndexProtocol
open Evm PreciseUnitMath ModuleBase

namespace AirdropModule

structure AirdropSettings where
  airdrops : List Address
  feeRecipient : Address
  /-- In precise units. -/
  airdropFee : Nat
  anyoneAbsorb : Bool

/-- The state of the module for the SetToken. -/
structure State where
  airdropSettings : AirdropSettings
  isAirdrop : Address → Bool

def AirdropSettings.empty : AirdropSettings := ⟨[], 0, 0, false⟩

end AirdropModule

abbrev AirdropWorld := World AirdropModule.State

namespace AirdropModule

def airdropModuleProtocolFeeIndex : Nat := 0

def settings (w : AirdropWorld) : AirdropSettings := w.rest.airdropSettings

def withSettings (w : AirdropWorld) (s : AirdropSettings) : AirdropWorld :=
  { w with rest := { w.rest with airdropSettings := s } }

section Module
variable (module : Address) (w : AirdropWorld)

def isAirdropToken (token : Address) : Bool := w.rest.isAirdrop token

def isValidCaller (sender : Address) : Bool :=
  (settings w).anyoneAbsorb || isSetManager w.setToken sender

/-! ### Absorbing a token -/

def payProtocolFeeFromSetToken (token : Address) (feeQuantity : Nat) : Result AirdropWorld :=
  if 0 < feeQuantity then
    Invoke.strictInvokeTransfer w module token w.setToken.controller.feeRecipient feeQuantity
  else pure w

/-- Returns the manager's part, net of the protocol's, the protocol's part, and both. -/
def handleFees (component : Address) (amountAirdropped : Nat) :
    Result (AirdropWorld × Nat × Nat × Nat) := do
  let airdropFee := (settings w).airdropFee
  if 0 < airdropFee then
    let totalFees ← preciseMul amountAirdropped airdropFee
    let protocolTake ← getModuleFee w.setToken module airdropModuleProtocolFeeIndex totalFees
    let netManagerTake ← SafeMath.sub totalFees protocolTake
    let w ← Invoke.strictInvokeTransfer w module component (settings w).feeRecipient netManagerTake
    let w ← payProtocolFeeFromSetToken module w component protocolTake
    pure (w, netManagerTake, protocolTake, totalFees)
  else pure (w, 0, 0, 0)

/-- The unit of what is left of the balance. -/
def getPostAirdropUnit (totalComponentBalance totalFeesPaid : Nat) : Result Nat := do
  let totalSupply := w.setToken.totalSupply
  let left ← SafeMath.sub totalComponentBalance totalFeesPaid
  preciseDiv left totalSupply

def getDefaultTrackedBalance (component : Address) : Result Nat := do
  let positionUnit ← w.setToken.getDefaultPositionRealUnit component
  let unit ← SafeCast.toUint256 positionUnit
  preciseMul w.setToken.totalSupply unit

def handleAirdropPosition (token : Address) : Result AirdropWorld := do
  let preFeeTokenBalance := w.balance token
  let tracked ← getDefaultTrackedBalance w token
  let amountAirdropped ← SafeMath.sub preFeeTokenBalance tracked
  if 0 < amountAirdropped then
    let (w, _, _, totalFees) ← handleFees module w token amountAirdropped
    let newUnit ← getPostAirdropUnit w preFeeTokenBalance totalFees
    w.callSetToken fun s => Position.editDefaultPosition s module token newUnit
  else pure w

/-- The internal `_absorb`. -/
def absorbToken (token : Address) : Result AirdropWorld := do
  require (isAirdropToken w token = true) "Must be approved token."
  handleAirdropPosition module w token

def absorb (sender token : Address) : Result AirdropWorld := do
  require (isValidCaller w sender = true) "Must be valid caller"
  validateOnlyValidAndInitializedSet w.setToken module
  absorbToken module w token

def batchAbsorb (sender : Address) (tokens : List Address) : Result AirdropWorld := do
  require (isValidCaller w sender = true) "Must be valid caller"
  validateOnlyValidAndInitializedSet w.setToken module
  runs (absorbToken module) w tokens

/-! ### Settings -/

def addAirdrop (sender airdrop : Address) : Result AirdropWorld := do
  validateOnlyManagerAndValidSet w.setToken module sender
  require (isAirdropToken w airdrop = false) "Token already added."
  let w := withSettings w { settings w with airdrops := (settings w).airdrops ++ [airdrop] }
  pure { w with rest := { w.rest with isAirdrop := Function.update w.rest.isAirdrop airdrop true } }

def removeAirdrop (sender airdrop : Address) : Result AirdropWorld := do
  validateOnlyManagerAndValidSet w.setToken module sender
  require (isAirdropToken w airdrop = true) "Token not added."
  let airdrops ← AddressArrayUtils.removeStorage (settings w).airdrops airdrop
  let w := withSettings w { settings w with airdrops := airdrops }
  pure { w with rest := { w.rest with isAirdrop := Function.update w.rest.isAirdrop airdrop false } }

def updateAnyoneAbsorb (sender : Address) (anyoneAbsorb : Bool) : Result AirdropWorld := do
  validateOnlyManagerAndValidSet w.setToken module sender
  pure (withSettings w { settings w with anyoneAbsorb := anyoneAbsorb })

def updateFeeRecipient (sender newFeeRecipient : Address) : Result AirdropWorld := do
  validateOnlyManagerAndValidSet w.setToken module sender
  require (newFeeRecipient ≠ 0) "Passed address must be non-zero"
  pure (withSettings w { settings w with feeRecipient := newFeeRecipient })

/-- All that is outstanding is absorbed at the old fee. -/
def updateAirdropFee (sender : Address) (newFee : Nat) : Result AirdropWorld := do
  validateOnlyManagerAndValidSet w.setToken module sender
  require (newFee ≤ preciseUnit) "Airdrop fee can't exceed 100%"
  let w ← runs (absorbToken module) w (settings w).airdrops
  pure (withSettings w { settings w with airdropFee := newFee })

/-- The module's `initialize`. -/
def initializeSet (sender : Address) (airdropSettings : AirdropSettings) : Result AirdropWorld := do
  validateOnlySetManager w.setToken sender
  validateOnlyValidAndPendingSet w.setToken module
  require (airdropSettings.airdropFee ≤ preciseUnit) "Fee must be <= 100%."
  require (airdropSettings.feeRecipient ≠ 0) "Zero fee address passed"
  if airdropSettings.airdrops.length > 0 then
    let duplicate ← AddressArrayUtils.hasDuplicate airdropSettings.airdrops
    require (duplicate = false) "Duplicate airdrop token passed"
  let isAirdrop := airdropSettings.airdrops.foldl
    (fun flag airdrop => Function.update flag airdrop true) w.rest.isAirdrop
  let w : AirdropWorld := { w with rest := ⟨airdropSettings, isAirdrop⟩ }
  w.callSetToken (·.initializeModule module)

/-- What the SetToken calls when it removes the module. Airdrops are not absorbed. -/
def removeModule : AirdropWorld :=
  let isAirdrop := (settings w).airdrops.foldl
    (fun flag airdrop => Function.update flag airdrop false) w.rest.isAirdrop
  { w with rest := ⟨.empty, isAirdrop⟩ }

/-- The manager removes this module from the SetToken. -/
def removeFromSet (sender : Address) : Result AirdropWorld := do
  w.setToken.validateRemoveModule sender module
  let w := removeModule w
  w.callSetToken (·.finishRemoveModule module)

end Module

variable {module token : Address} {w u v : AirdropWorld}

/-! ### What absorbing leaves -/

/-- What the SetToken has of a token above its position. -/
def untracked (w : AirdropWorld) (token : Address) : Nat :=
  Position.airdropped w.setToken token w.setToken.totalSupply (w.balance token)

/-- What the module charges for an amount. -/
def totalFees (w : AirdropWorld) (amount : Nat) : Nat :=
  amount * (settings w).airdropFee / preciseUnit

/-- The protocol's part of it. -/
def protocolTake (module : Address) (w : AirdropWorld) (amount : Nat) : Nat :=
  totalFees w amount * w.setToken.controller.fees module airdropModuleProtocolFeeIndex / preciseUnit

/-- The fee left the SetToken, for the manager's recipient and the protocol. -/
structure FeesPaid (module : Address) (w : AirdropWorld) (tokens : Address → Erc20)
    (token : Address) (amount : Nat) : Prop where
  protocol_le : protocolTake module w amount ≤ totalFees w amount
  paid : ∃ ledger, (w.tokens token).Moved ledger w.setToken.self (settings w).feeRecipient
      (totalFees w amount - protocolTake module w amount) ∧
    ledger.Moved (tokens token) w.setToken.self w.setToken.controller.feeRecipient
      (protocolTake module w amount)
  left : (tokens token).balanceOf w.setToken.self + totalFees w amount = w.balance token
  others : ∀ other, other ≠ token → tokens other = w.tokens other

/-- Of nothing nothing is charged. -/
theorem FeesPaid.nothing {amount : Nat} (h : totalFees w amount = 0) :
    FeesPaid module w w.tokens token amount := by
  have hprotocol : protocolTake module w amount = 0 := by
    rw [protocolTake, h, Nat.zero_mul, Nat.zero_div]
  refine ⟨by omega, ⟨w.tokens token, ?_, ?_⟩, ?_, fun _ _ => rfl⟩
  · rw [h, hprotocol]
    exact .zero _ _ _
  · rw [hprotocol]
    exact .zero _ _ _
  · rw [h]
    rfl

theorem payProtocolFeeFromSetToken_eq {quantity : Nat} :
    payProtocolFeeFromSetToken module w token quantity =
      Invoke.strictInvokeTransfer w module token w.setToken.controller.feeRecipient quantity := by
  unfold payProtocolFeeFromSetToken Invoke.strictInvokeTransfer
  split_ifs <;> rfl

theorem handleFees_paid {amount managerTake protocol total : Nat}
    (h : handleFees module w token amount = .ok (v, managerTake, protocol, total)) :
    v.setToken = w.setToken ∧ v.rest = w.rest ∧ FeesPaid module w v.tokens token amount ∧
      total = totalFees w amount := by
  unfold handleFees at h
  dsimp only at h
  split_ifs at h with hfee
  · simp only [getModuleFee, bind_eq_ok, preciseMul_eq_ok, SafeMath.sub_eq_ok, pure_eq_ok,
      payProtocolFeeFromSetToken_eq, Prod.mk.injEq] at h
    obtain ⟨_, ⟨_, rfl⟩, _, ⟨_, rfl⟩, _, ⟨hle, rfl⟩, u, hmanager, _, hprotocol, rfl, rfl, rfl, rfl⟩ := h
    obtain ⟨hsame, hmoved, hleft⟩ := World.strictInvokeTransfer_balance hmanager
    obtain ⟨hsame', hmoved', hleft'⟩ := World.strictInvokeTransfer_balance hprotocol
    have hboth := hsame.trans hsame'
    rw [hsame.setToken] at hmoved'
    refine ⟨hboth.setToken, hboth.rest, ⟨hle, ⟨_, hmoved, hmoved'⟩, ?_, hboth.tokens⟩, rfl⟩
    rw [World.balance, hboth.setToken] at hleft'
    show _ + amount * (settings w).airdropFee / preciseUnit = _
    omega
  · simp only [pure_eq_ok, Prod.mk.injEq] at h
    obtain ⟨rfl, rfl, rfl, rfl⟩ := h
    have hnone : totalFees w amount = 0 := by
      rw [totalFees, Nat.eq_zero_of_not_pos hfee, Nat.mul_zero, Nat.zero_div]
    exact ⟨rfl, rfl, .nothing hnone, hnone.symm⟩

/-- The SetToken has what the unit of the token stands for. -/
def Backed (w : AirdropWorld) (token : Address) : Prop :=
  (w.setToken.defaultRealUnit token).toNat * w.setToken.totalSupply ≤ w.balance token * preciseUnit

/-- What absorbing leaves. A unit loses one step of the multiplier at most, and another one to
rounding. -/
structure Absorbed (module : Address) (w v : AirdropWorld) (token : Address) : Prop where
  wellFormed : v.setToken.WellFormed
  only : w.setToken.OnlyPositions v.setToken
  rest : v.rest = w.rest
  fees : FeesPaid module w v.tokens token (untracked w token)
  unchanged : untracked w token = 0 → v = w
  backed_iff : Backed v token ↔ 0 < untracked w token ∨ Backed w token
  untracked_lt : (untracked v token : ℚ) < (SetToken.unitStep w.setToken.positionMultiplier + 1 :
    Nat) * v.setToken.totalSupply / preciseUnit + 1

theorem getDefaultTrackedBalance_eq {tracked : Nat}
    (h : getDefaultTrackedBalance w token = .ok tracked) :
    tracked = Position.trackedBalance w.setToken token w.setToken.totalSupply := by
  simp only [getDefaultTrackedBalance, bind_eq_ok, SetToken.getDefaultPositionRealUnit_eq_ok,
    SafeCast.toUint256_eq_ok, preciseMul_eq_ok] at h
  obtain ⟨_, ⟨_, rfl⟩, unit, hunit, _, rfl⟩ := h
  rw [Position.trackedBalance, hunit, Int.toNat_natCast]

/-- A unit that is less than `lost` below what the balance allows leaves little untracked. -/
theorem untracked_lt_of_unit {supply unit balance lost : Nat}
    (h : balance * preciseUnit < (unit + lost) * supply) :
    ((balance - supply * unit / preciseUnit : Nat) : ℚ) < lost * supply / preciseUnit + 1 := by
  have hpos : (0 : ℚ) < preciseUnit := by exact_mod_cast preciseUnit_pos
  have hfloor := Rounding.lt_floor_succ_mul (supply * unit) preciseUnit_pos
  have hleft : (balance - supply * unit / preciseUnit) * preciseUnit <
      lost * supply + preciseUnit := by
    rw [Nat.sub_mul]
    rw [Nat.add_mul] at h hfloor
    rw [Nat.mul_comm unit] at h
    have := preciseUnit_pos
    omega
  rw [← sub_lt_iff_lt_add, lt_div_iff₀ hpos, sub_mul, one_mul, sub_lt_iff_lt_add]
  exact_mod_cast hleft

theorem handleAirdropPosition_absorbed (hwf : w.setToken.WellFormed)
    (h : handleAirdropPosition module w token = .ok v) : Absorbed module w v token := by
  simp only [handleAirdropPosition, bind_eq_ok, SafeMath.sub_eq_ok] at h
  obtain ⟨tracked, htracked, amount, ⟨hle, hamount⟩, h⟩ := h
  obtain rfl := getDefaultTrackedBalance_eq htracked
  change untracked w token = amount at hamount
  subst hamount
  by_cases hpos : 0 < untracked w token
  · rw [if_pos hpos] at h
    simp only [bind_eq_ok, getPostAirdropUnit, SafeMath.sub_eq_ok, preciseDiv_eq_ok] at h
    obtain ⟨⟨u, _, _, total⟩, hfees, _, ⟨_, ⟨hcovered, rfl⟩, hbound, hsupply, rfl⟩, hedit⟩ := h
    obtain ⟨hset, hrest, hpaid, rfl⟩ := handleFees_paid hfees
    obtain ⟨t, ht, rfl⟩ := World.callSetToken_eq_ok.mp hedit
    rw [hset] at ht hsupply
    obtain ⟨honly, hwf', _, _, hwritten, hstep, _⟩ :=
      AuctionRebalanceModuleV1.editDefaultPosition_written hwf ht
    have hbalance : (u.tokens token).balanceOf t.self =
        w.balance token - totalFees w (untracked w token) := by
      have := hpaid.left
      rw [honly.self]
      omega
    refine ⟨hwf', honly, hrest, hpaid, fun hzero => absurd hzero hpos.ne',
      iff_of_true ?_ (.inl hpos), ?_⟩
    · show (t.defaultRealUnit token).toNat * t.totalSupply ≤
        (u.tokens token).balanceOf t.self * preciseUnit
      rw [hbalance, honly.totalSupply]
      exact (Nat.mul_le_mul_right _ hwritten).trans (Nat.div_mul_le_self _ _)
    · refine untracked_lt_of_unit ?_
      show (u.tokens token).balanceOf t.self * preciseUnit < _
      rw [hbalance, honly.totalSupply]
      refine (Rounding.lt_floor_succ_mul _ hsupply).trans_le (Nat.mul_le_mul_right _ ?_)
      rw [← Nat.add_assoc]
      exact Nat.add_le_add_right hstep 1
  · rw [if_neg hpos] at h
    obtain rfl := pure_eq_ok.mp h
    have hzero := Nat.eq_zero_of_not_pos hpos
    refine ⟨hwf, .refl _, rfl, ?_, fun _ => rfl, (or_iff_right hpos).symm, ?_⟩
    · refine .nothing ?_
      rw [hzero, totalFees, Nat.zero_mul, Nat.zero_div]
    · rw [hzero]
      positivity

theorem absorb_absorbed {sender : Address} (hwf : w.setToken.WellFormed)
    (h : absorb module w sender token = .ok v) : Absorbed module w v token := by
  simp only [absorb, absorbToken, bind_eq_ok] at h
  obtain ⟨_, _, _, _, _, _, hposition⟩ := h
  exact handleAirdropPosition_absorbed hwf hposition

theorem Absorbed.untracked_lt_two (h : Absorbed module w v token)
    (hmultiplier : w.setToken.positionMultiplier ≤ preciseUnitInt) :
    (untracked v token : ℚ) < 2 * v.setToken.totalSupply / preciseUnit + 1 := by
  have hlost : ((SetToken.unitStep w.setToken.positionMultiplier + 1 : Nat) : ℚ) ≤ 2 := by
    exact_mod_cast Nat.succ_le_succ (SetToken.unitStep_le_one hmultiplier)
  refine h.untracked_lt.trans_le ?_
  gcongr

/-- **A token is charged for once.** For every SetToken in every state that calls after its creation
lead to, whatever its balance and the fees, absorbing a token takes exactly the fee on what was
untracked and splits it without loss. Then the position is backed exactly if there was something
to absorb or it was backed before, nothing changes if there was not, and what stays untracked, which
is all that absorbing the token again charges for, is little. -/
theorem absorb_charges_once {controller : Controller} {factory self manager sender : Address}
    {components modules : List Address} {units : List Int} {calls : List SetToken.Call}
    {created : SetToken}
    (hcreate : SetTokenCreator.create controller factory self components units modules manager =
      .ok created)
    (hrun : runs SetToken.call created calls = .ok w.setToken)
    (hmultiplier : w.setToken.positionMultiplier ≤ preciseUnitInt)
    (h : absorb module w sender token = .ok v) :
    Absorbed module w v token ∧
      (untracked v token : ℚ) < 2 * v.setToken.totalSupply / preciseUnit + 1 ∧
      ∀ caller u, absorb module v caller token = .ok u →
        FeesPaid module v u.tokens token (untracked v token) := by
  have hwf : w.setToken.WellFormed := SetToken.reachable_wellFormed hcreate hrun
  have habsorbed := absorb_absorbed hwf h
  exact ⟨habsorbed, habsorbed.untracked_lt_two hmultiplier,
    fun caller u hagain => (absorb_absorbed habsorbed.wellFormed hagain).fees⟩

/-! Token 1 has a unit in a SetToken of one share or more, and anybody may absorb it for a fifth. -/

section Example
open AuctionRebalanceModuleV1 (exampleCreation exampleCalls exampleTokens)

def exampleAirdrop (unit : Int) (calls : List SetToken.Call) (balance : Nat) :
    Result AirdropWorld := do
  let created ← exampleCreation unit
  let s ← runs SetToken.call created (exampleCalls ++ calls)
  pure ⟨s, exampleTokens balance, ⟨⟨[1], 5, 2 * 10 ^ 17, true⟩, fun a => a == 1⟩⟩

theorem exampleAirdrop_spec {unit : Int} {calls : List SetToken.Call} {balance : Nat}
    (h : exampleAirdrop unit calls balance = .ok w) : ∃ created,
      exampleCreation unit = .ok created ∧
        runs SetToken.call created (exampleCalls ++ calls) = .ok w.setToken := by
  simp only [exampleAirdrop, bind_eq_ok, pure_eq_ok] at h
  obtain ⟨created, hcreate, s, hrun, rfl⟩ := h
  exact ⟨created, hcreate, hrun⟩

/-- Fifteen of the 25 are untracked, and three of them charged. -/
theorem absorb_charges_once_example : ∃ w v, exampleAirdrop 10 [] 25 = .ok w ∧
    absorb 50 w 30 1 = .ok v ∧ untracked w 1 = 15 ∧ v.balance 1 = 22 ∧ Absorbed 50 w v 1 := by
  have h : (do
      let w ← exampleAirdrop 10 [] 25
      let v ← absorb 50 w 30 1
      require (w.setToken.positionMultiplier ≤ preciseUnitInt ∧ untracked w 1 = 15 ∧
        v.balance 1 = 22) "") = .ok () := by
    decide +kernel
  simp only [bind_eq_ok, require_eq_ok] at h
  obtain ⟨w, hw, v, hv, hmultiplier, huntracked, hbalance⟩ := h
  obtain ⟨created, hcreate, hrun⟩ := exampleAirdrop_spec hw
  exact ⟨w, v, hw, hv, huntracked, hbalance,
    (absorb_charges_once hcreate hrun hmultiplier hv).1⟩

/-- One share and a half of a unit of one are worth one and a half; the balance of one has nothing
to absorb, and does not back them. -/
theorem absorb_leaves_unbacked : ∃ w v, exampleAirdrop 1 [.mint 60 77 (5 * 10 ^ 17)] 1 = .ok w ∧
    absorb 50 w 30 1 = .ok v ∧ 0 < w.setToken.totalSupply ∧
    w.setToken.positionMultiplier = preciseUnitInt ∧ (settings w).airdropFee ≤ preciseUnit ∧
    untracked w 1 = 0 ∧ ¬Backed v 1 := by
  have h : (do
      let w ← exampleAirdrop 1 [.mint 60 77 (5 * 10 ^ 17)] 1
      let v ← absorb 50 w 30 1
      require (0 < w.setToken.totalSupply ∧ w.setToken.positionMultiplier = preciseUnitInt ∧
        (settings w).airdropFee ≤ preciseUnit ∧ untracked w 1 = 0 ∧
        ¬(v.setToken.defaultRealUnit 1).toNat * v.setToken.totalSupply ≤
          v.balance 1 * preciseUnit) "") = .ok () := by
    decide +kernel
  simp only [bind_eq_ok, require_eq_ok] at h
  obtain ⟨w, hw, v, hv, hall⟩ := h
  exact ⟨w, v, hw, hv, hall⟩

end Example

end AirdropModule

end IndexProtocol
