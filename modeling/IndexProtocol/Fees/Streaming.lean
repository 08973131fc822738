import IndexProtocol.ModuleBase

/-! The StreamingFeeModule: fees paid in new shares.

Accruing mints shares to the manager and the protocol, for the time since the
last accrual, and scales the position multiplier down by the same fee. -/
namespace IndexProtocol
open Evm PreciseUnitMath ModuleBase

structure FeeState where
  feeRecipient : Address
  maxStreamingFeePercentage : Nat
  streamingFeePercentage : Nat
  lastStreamingFeeTimestamp : Nat
  deriving DecidableEq, Repr

namespace StreamingFeeModule

/-- 365.25 days. -/
def oneYearInSeconds : Nat := 31557600

def protocolStreamingFeeIndex : Nat := 0

/-- The share of the supply that is due as fee at a time. -/
def calculateStreamingFee (timestamp : Nat) (state : FeeState) : Result Nat := do
  let timeSinceLastFee ← SafeMath.sub timestamp state.lastStreamingFeeTimestamp
  let product ← SafeMath.mul timeSinceLastFee state.streamingFeePercentage
  SafeMath.div product oneYearInSeconds

/-- The new shares that are `feePercentage` of the supply they enlarge. -/
def calculateStreamingFeeInflation (s : SetToken) (feePercentage : Nat) : Result Nat := do
  let a ← SafeMath.mul feePercentage s.totalSupply
  let b ← SafeMath.sub preciseUnit feePercentage
  SafeMath.div a b

variable (module : Address)

def mintManagerAndProtocolFee (s : SetToken) (state : FeeState) (feeQuantity : Nat) :
    Result SetToken := do
  let protocolFeeRecipient := s.controller.feeRecipient
  let protocolFee := s.controller.fees module protocolStreamingFeeIndex
  let protocolFeeAmount ← preciseMul feeQuantity protocolFee
  let managerFeeAmount ← SafeMath.sub feeQuantity protocolFeeAmount
  let s ← s.mint module state.feeRecipient managerFeeAmount
  if 0 < protocolFeeAmount then s.mint module protocolFeeRecipient protocolFeeAmount else pure s

def editPositionMultiplier (s : SetToken) (inflationFee : Nat) : Result SetToken := do
  let remaining ← SafeMath.sub preciseUnit inflationFee
  let remaining ← SafeCast.toInt256 remaining
  let newMultiplier ← preciseMulInt s.positionMultiplier remaining
  s.editPositionMultiplier module newMultiplier

/-- Mints the fee that is due and scales the multiplier. -/
def actualizeFee (timestamp : Nat) (s : SetToken) (state : FeeState) : Result SetToken := do
  let inflationFeePercentage ← calculateStreamingFee timestamp state
  let feeQuantity ← calculateStreamingFeeInflation s inflationFeePercentage
  let s ← mintManagerAndProtocolFee module s state feeQuantity
  editPositionMultiplier module s inflationFeePercentage

/-- Callable by anyone, at any `timestamp`. -/
def accrueFee (timestamp : Nat) (s : SetToken) (state : FeeState) :
    Result (SetToken × FeeState) := do
  validateOnlyValidAndInitializedSet s module
  let s ← (if 0 < state.streamingFeePercentage then actualizeFee module timestamp s state
    else pure s)
  pure (s, { state with lastStreamingFeeTimestamp := timestamp })

/-- The module's `initialize`. -/
def initializeSet (timestamp : Nat) (s : SetToken) (sender : Address) (settings : FeeState) :
    Result (SetToken × FeeState) := do
  validateOnlySetManager s sender
  validateOnlyValidAndPendingSet s module
  require (settings.feeRecipient ≠ 0) "Fee Recipient must be non-zero address."
  require (settings.maxStreamingFeePercentage < preciseUnit) "Max fee must be < 100%."
  require (settings.streamingFeePercentage ≤ settings.maxStreamingFeePercentage) "Fee must be <= max."
  let s ← s.initializeModule module
  pure (s, { settings with lastStreamingFeeTimestamp := timestamp })

/-- What the SetToken calls when it removes the module: the fee state is deleted. -/
def removeModule : FeeState := ⟨0, 0, 0, 0⟩

/-- Fees accrue at the old rate before the new one is set. -/
def updateStreamingFee (timestamp : Nat) (s : SetToken) (state : FeeState) (sender : Address)
    (newFee : Nat) : Result (SetToken × FeeState) := do
  validateOnlySetManager s sender
  validateOnlyValidAndInitializedSet s module
  require (newFee < state.maxStreamingFeePercentage) "Fee must be less than max"
  let (s, state) ← accrueFee module timestamp s state
  pure (s, { state with streamingFeePercentage := newFee })

def updateFeeRecipient (s : SetToken) (state : FeeState) (sender newFeeRecipient : Address) :
    Result FeeState := do
  validateOnlySetManager s sender
  validateOnlyValidAndInitializedSet s module
  require (newFeeRecipient ≠ 0) "Fee Recipient must be non-zero address."
  pure { state with feeRecipient := newFeeRecipient }

/-! ### What accrual does to supply and multiplier -/

variable {module} {s t : SetToken} {state : FeeState} {timestamp : Nat}

/-- The two mints add up to the fee. -/
theorem mintManagerAndProtocolFee_eq {feeQuantity : Nat}
    (h : mintManagerAndProtocolFee module s state feeQuantity = .ok t) :
    s.SamePositions t ∧ t.totalSupply = s.totalSupply + feeQuantity := by
  simp only [mintManagerAndProtocolFee, bind_eq_ok, preciseMul_eq_ok, SafeMath.sub_eq_ok] at h
  obtain ⟨protocolFeeAmount, _, _, ⟨hle, rfl⟩, s₁, hmanager, h⟩ := h
  obtain ⟨hsame, hsupply⟩ := SetToken.mint_totalSupply hmanager
  split_ifs at h with hprotocol
  · obtain ⟨hsame', hsupply'⟩ := SetToken.mint_totalSupply h
    exact ⟨hsame.trans hsame', by omega⟩
  · obtain rfl : s₁ = t := by simpa using h
    exact ⟨hsame, by omega⟩

/-- What `actualizeFee` leaves: more shares, the same positions and a smaller multiplier. -/
structure Accrued (s t : SetToken) (feePercentage feeQuantity : Nat) : Prop where
  percentage_lt : feePercentage < preciseUnit
  quantity : feePercentage * s.totalSupply / (preciseUnit - feePercentage) = feeQuantity
  self : t.self = s.self
  components : t.components = s.components
  componentPositions : t.componentPositions = s.componentPositions
  totalSupply : t.totalSupply = s.totalSupply + feeQuantity
  multiplier : t.positionMultiplier =
    (s.positionMultiplier * ((preciseUnit - feePercentage : Nat) : Int)).tdiv preciseUnitInt

theorem actualizeFee_eq (h : actualizeFee module timestamp s state = .ok t) :
    ∃ feePercentage feeQuantity, calculateStreamingFee timestamp state = .ok feePercentage ∧
      calculateStreamingFeeInflation s feePercentage = .ok feeQuantity ∧
      Accrued s t feePercentage feeQuantity := by
  simp only [actualizeFee, bind_eq_ok] at h
  obtain ⟨feePercentage, hpercentage, feeQuantity, hquantity, s₁, hmint, hedit⟩ := h
  obtain ⟨hsame, hsupply⟩ := mintManagerAndProtocolFee_eq hmint
  simp only [editPositionMultiplier, bind_eq_ok, SafeMath.sub_eq_ok, SafeCast.toInt256_eq_ok,
    preciseMulInt_eq_ok, SetToken.editPositionMultiplier_eq_ok] at hedit
  obtain ⟨_, ⟨_, rfl⟩, _, ⟨_, rfl⟩, _, ⟨_, rfl⟩, _, _, rfl⟩ := hedit
  refine ⟨feePercentage, feeQuantity, hpercentage, hquantity, ?_⟩
  simp only [calculateStreamingFeeInflation, bind_eq_ok, SafeMath.mul_eq_ok, SafeMath.sub_eq_ok,
    SafeMath.div_eq_ok] at hquantity
  obtain ⟨_, ⟨_, rfl⟩, _, ⟨_, rfl⟩, hpos, hquantity⟩ := hquantity
  exact ⟨by omega, hquantity, hsame.self, hsame.components, hsame.componentPositions, hsupply, by
    rw [← hsame.positionMultiplier]⟩

theorem actualizeFee_wellFormed (hwf : s.WellFormed)
    (h : actualizeFee module timestamp s state = .ok t) : t.WellFormed := by
  simp only [actualizeFee, editPositionMultiplier, bind_eq_ok] at h
  obtain ⟨_, _, _, _, s₁, hmint, _, _, _, _, _, _, hedit⟩ := h
  exact SetToken.editPositionMultiplier_wellFormed (hwf.of_same (mintManagerAndProtocolFee_eq hmint).1)
    hedit

/-- Accrual actualizes the fee, unless there is none. -/
theorem accrueFee_eq {result : SetToken × FeeState}
    (h : accrueFee module timestamp s state = .ok result) :
    result.1 = s ∨ actualizeFee module timestamp s state = .ok result.1 := by
  simp only [accrueFee, bind_eq_ok, pure_eq_ok] at h
  obtain ⟨_, _, s₁, hfee, rfl⟩ := h
  split_ifs at hfee
  · exact .inr hfee
  · exact .inl (pure_eq_ok.mp hfee).symm

/-- The supply that the fee enlarges. -/
theorem Accrued.totalSupply_eq {feePercentage feeQuantity : Nat}
    (h : Accrued s t feePercentage feeQuantity) :
    t.totalSupply = s.totalSupply * preciseUnit / (preciseUnit - feePercentage) := by
  have hleft : 0 < preciseUnit - feePercentage := Nat.sub_pos_of_lt h.percentage_lt
  rw [h.totalSupply, ← h.quantity, ← Nat.mul_add_div hleft]
  congr 1
  calc (preciseUnit - feePercentage) * s.totalSupply + feePercentage * s.totalSupply
      = (preciseUnit - feePercentage + feePercentage) * s.totalSupply := (Nat.add_mul _ _ _).symm
    _ = s.totalSupply * preciseUnit := by
      rw [Nat.sub_add_cancel h.percentage_lt.le, Nat.mul_comm]

/-- The multiplier that is left, as a number. -/
theorem Accrued.multiplier_eq {feePercentage feeQuantity m : Nat}
    (h : Accrued s t feePercentage feeQuantity) (hm : s.positionMultiplier = m) :
    t.positionMultiplier = ((m * (preciseUnit - feePercentage) / preciseUnit : Nat) : Int) := by
  rw [h.multiplier, hm, ← preciseUnit_cast]
  rfl

/-- Shares and multiplier move in opposite proportion, but for rounding, which takes from both. -/
theorem Accrued.shrinks {feePercentage feeQuantity : Nat} (h : Accrued s t feePercentage feeQuantity)
    (hm : 0 < s.positionMultiplier) :
    0 ≤ t.positionMultiplier ∧ t.positionMultiplier ≤ s.positionMultiplier ∧
      t.positionMultiplier.toNat * t.totalSupply ≤
        s.positionMultiplier.toNat * s.totalSupply := by
  obtain ⟨m, hsm⟩ := Int.eq_ofNat_of_zero_le hm.le
  have htm := h.multiplier_eq hsm
  have hmint : t.totalSupply * (preciseUnit - feePercentage) ≤ s.totalSupply * preciseUnit := by
    rw [h.totalSupply_eq]
    exact Nat.div_mul_le_self _ _
  generalize hr : preciseUnit - feePercentage = r at htm hmint
  have hfloor := Nat.div_mul_le_self (m * r) preciseUnit
  rw [htm, hsm, Int.toNat_natCast, Int.toNat_natCast]
  refine ⟨Int.natCast_nonneg _, Int.ofNat_le.mpr ?_, ?_⟩
  · exact Nat.div_le_of_le_mul (Nat.mul_comm m r ▸ Nat.mul_le_mul_right m (by omega))
  · refine Nat.le_of_mul_le_mul_right ?_ preciseUnit_pos
    calc m * r / preciseUnit * t.totalSupply * preciseUnit
        = m * r / preciseUnit * preciseUnit * t.totalSupply := Nat.mul_right_comm _ _ _
      _ ≤ m * r * t.totalSupply := Nat.mul_le_mul_right _ hfloor
      _ = m * (t.totalSupply * r) := by ring
      _ ≤ m * (s.totalSupply * preciseUnit) := Nat.mul_le_mul_left _ hmint
      _ = m * s.totalSupply * preciseUnit := (Nat.mul_assoc _ _ _).symm

end StreamingFeeModule

end IndexProtocol
