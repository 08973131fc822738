import IndexProtocol.Rounding
import IndexProtocol.Fees.Streaming
import IndexProtocol.SetToken.Representation

/-! Accruing the streaming fee more often.

Anyone may accrue the fee at any time. Two accruals take two percentages, each of what the
first has left, so together they take no more than one percentage for the whole time. The
rounding is in the same direction for the shares; for the multiplier it can take one unit
more. -/
namespace IndexProtocol
open Evm PreciseUnitMath ModuleBase

namespace StreamingFeeModule
variable {module : Address} {s s₁ s₂ t : SetToken} {state state₁ state₂ stateT : FeeState}
  {timestamp₁ timestamp₂ : Nat}

/-- What is due for a time. -/
theorem calculateStreamingFee_eq_ok {timestamp fee : Nat} :
    calculateStreamingFee timestamp state = .ok fee ↔
      state.lastStreamingFeeTimestamp ≤ timestamp ∧
        (timestamp - state.lastStreamingFeeTimestamp) * state.streamingFeePercentage < uintBound ∧
        (timestamp - state.lastStreamingFeeTimestamp) * state.streamingFeePercentage /
          oneYearInSeconds = fee := by
  simp only [calculateStreamingFee, bind_eq_ok, SafeMath.sub_eq_ok, SafeMath.mul_eq_ok,
    SafeMath.div_eq_ok]
  constructor
  · rintro ⟨_, ⟨hle, rfl⟩, _, ⟨hbound, rfl⟩, _, hfee⟩
    exact ⟨hle, hbound, hfee⟩
  · rintro ⟨hle, hbound, hfee⟩
    exact ⟨_, ⟨hle, rfl⟩, _, ⟨hbound, rfl⟩, by decide, hfee⟩

/-- An accrual takes a percentage of the supply, where there is a fee. -/
theorem accrueFee_accrued {timestamp : Nat}
    (h : accrueFee module timestamp s state = .ok (t, stateT)) :
    stateT = { state with lastStreamingFeeTimestamp := timestamp } ∧
      if 0 < state.streamingFeePercentage then
        ∃ fee feeQuantity, calculateStreamingFee timestamp state = .ok fee ∧
          Accrued s t fee feeQuantity
      else t = s := by
  simp only [accrueFee, bind_eq_ok, pure_eq_ok, Prod.mk.injEq] at h
  obtain ⟨_, _, s', hfee, rfl, rfl⟩ := h
  refine ⟨rfl, ?_⟩
  split_ifs at hfee ⊢
  · obtain ⟨fee, feeQuantity, hcalculated, _, haccrued⟩ := actualizeFee_eq hfee
    exact ⟨fee, feeQuantity, hcalculated, haccrued⟩
  · exact (pure_eq_ok.mp hfee).symm

/-- What is left after two percentages is no less than what is left after one that is no smaller
than both together. -/
theorem left_mul_le {d fee₁ fee₂ fee : Nat} (hfee : fee₁ + fee₂ ≤ fee) (h₁ : fee₁ ≤ d)
    (h₂ : fee₂ ≤ d) : (d - fee) * d ≤ (d - fee₁) * (d - fee₂) := by
  obtain ⟨r₁, rfl⟩ := Nat.exists_eq_add_of_le h₁
  rw [Nat.add_sub_cancel_left]
  have hleft : fee₁ + r₁ - fee ≤ r₁ - fee₂ := by omega
  have hright : (r₁ - fee₂) * (fee₁ + r₁) ≤ r₁ * (fee₁ + r₁ - fee₂) := by
    cases Nat.le_total fee₂ r₁ with
    | inl hle =>
      obtain ⟨k, rfl⟩ := Nat.exists_eq_add_of_le hle
      rw [Nat.add_sub_cancel_left, show fee₁ + (fee₂ + k) - fee₂ = fee₁ + k by omega]
      have : (fee₂ + k) * (fee₁ + k) = k * (fee₁ + (fee₂ + k)) + fee₂ * fee₁ := by ring
      omega
    | inr hle => rw [Nat.sub_eq_zero_of_le hle, Nat.zero_mul]; exact Nat.zero_le _
  exact (Nat.mul_le_mul_right _ hleft).trans hright

/-- The percentages of two accruals are together no more than that of one for the whole time. -/
theorem calculateStreamingFee_split {fee fee₁ fee₂ : Nat}
    (hfirst : calculateStreamingFee timestamp₁ state = .ok fee₁)
    (hsecond : calculateStreamingFee timestamp₂
      { state with lastStreamingFeeTimestamp := timestamp₁ } = .ok fee₂)
    (hsingle : calculateStreamingFee timestamp₂ state = .ok fee) : fee₁ + fee₂ ≤ fee := by
  obtain ⟨hle₁, _, rfl⟩ := calculateStreamingFee_eq_ok.mp hfirst
  obtain ⟨hle₂, _, rfl⟩ := calculateStreamingFee_eq_ok.mp hsecond
  obtain ⟨_, _, rfl⟩ := calculateStreamingFee_eq_ok.mp hsingle
  dsimp only at hle₂ ⊢
  have hsplit : timestamp₂ - state.lastStreamingFeeTimestamp =
      (timestamp₁ - state.lastStreamingFeeTimestamp) + (timestamp₂ - timestamp₁) := by omega
  rw [hsplit, Nat.add_mul]
  exact Nat.div_add_div_le_add_div

/-- **Accruing more often costs no more.** For every SetToken in every state that calls after its
creation lead to, and every fee, an accrual followed by another leaves no more shares than the
second one alone, a multiplier lower by one unit at most, and the same state of the fee. -/
theorem accrueFee_twice_le {controller : Controller} {factory self manager : Address}
    {components modules : List Address} {units : List Int} {calls : List SetToken.Call}
    {created : SetToken}
    (hcreate : SetTokenCreator.create controller factory self components units modules manager =
      .ok created)
    (hrun : runs SetToken.call created calls = .ok s)
    (hfirst : accrueFee module timestamp₁ s state = .ok (s₁, state₁))
    (hsecond : accrueFee module timestamp₂ s₁ state₁ = .ok (s₂, state₂))
    (hsingle : accrueFee module timestamp₂ s state = .ok (t, stateT)) :
    s₂.totalSupply ≤ t.totalSupply ∧ t.positionMultiplier - 1 ≤ s₂.positionMultiplier ∧
      state₂ = stateT := by
  have hwf : s.WellFormed := SetToken.reachable_wellFormed hcreate hrun
  obtain ⟨m, hm⟩ := Int.eq_ofNat_of_zero_le hwf.multiplier_pos.le
  obtain ⟨rfl, hpaid₁⟩ := accrueFee_accrued hfirst
  obtain ⟨rfl, hpaid₂⟩ := accrueFee_accrued hsecond
  obtain ⟨rfl, hpaid⟩ := accrueFee_accrued hsingle
  dsimp only at hpaid₂
  by_cases hrate : 0 < state.streamingFeePercentage
  · rw [if_pos hrate] at hpaid₁ hpaid₂ hpaid
    obtain ⟨fee₁, _, hfee₁, htaken₁⟩ := hpaid₁
    obtain ⟨fee₂, _, hfee₂, htaken₂⟩ := hpaid₂
    obtain ⟨fee, _, hfee, htaken⟩ := hpaid
    have hsum := calculateStreamingFee_split hfee₁ hfee₂ hfee
    have hleft := left_mul_le hsum htaken₁.percentage_lt.le htaken₂.percentage_lt.le
    refine ⟨?_, ?_, rfl⟩
    · rw [htaken₂.totalSupply_eq, htaken₁.totalSupply_eq, htaken.totalSupply_eq]
      exact Rounding.scaleUp_twice_le hleft _ (Nat.sub_pos_of_lt htaken.percentage_lt)
    · rw [htaken.multiplier_eq hm, htaken₂.multiplier_eq (htaken₁.multiplier_eq hm)]
      have hone := Rounding.scaleDown_le_twice_succ hleft m preciseUnit_pos (Nat.sub_le _ _)
      omega
  · rw [if_neg hrate] at hpaid₁ hpaid₂ hpaid
    rw [hpaid₂, hpaid₁, hpaid]
    exact ⟨Nat.le_refl _, by omega, rfl⟩

/-! A fee of two percent, accrued after a year, and after half of it too. -/

/-- The controller, before and after the SetToken is added. -/
def exampleController (added : Bool) : Controller where
  isInitialized := true
  isSet := fun _ => added
  isFactory := fun a => a == 7
  isModule := fun a => a == 10
  fees := fun _ _ => 0
  feeRecipient := 6
  integrationAdapter := fun _ _ => 0

def exampleCalls : List SetToken.Call :=
  [.initializeModule 10, .changeController (exampleController true), .mint 10 5 (10 ^ 18)]

def exampleState : FeeState := ⟨9, 10 ^ 17, 2 * 10 ^ 16, 0⟩

theorem accrueFee_twice_le_example : ∃ created s s₁ s₂ t state₁ state₂ stateT,
    SetTokenCreator.create (exampleController false) 7 20 [1] [19] [10] 9 = .ok created ∧
      runs SetToken.call created exampleCalls = .ok s ∧
      accrueFee 10 15778800 s exampleState = .ok (s₁, state₁) ∧
      accrueFee 10 31557600 s₁ state₁ = .ok (s₂, state₂) ∧
      accrueFee 10 31557600 s exampleState = .ok (t, stateT) ∧
      t.totalSupply = 1020408163265306122 ∧ s₂.totalSupply ≤ t.totalSupply ∧
      t.positionMultiplier - 1 ≤ s₂.positionMultiplier ∧ state₂ = stateT := by
  have h : (do
      let created ← SetTokenCreator.create (exampleController false) 7 20 [1] [19] [10] 9
      let s ← runs SetToken.call created exampleCalls
      let first ← accrueFee 10 15778800 s exampleState
      let _ ← accrueFee 10 31557600 first.1 first.2
      let once ← accrueFee 10 31557600 s exampleState
      require (once.1.totalSupply = 1020408163265306122) "") = .ok () := by decide +kernel
  simp only [bind_eq_ok, require_eq_ok] at h
  obtain ⟨created, hcreate, s, hrun, ⟨s₁, state₁⟩, hfirst, ⟨s₂, state₂⟩, hsecond, ⟨t, stateT⟩,
    hsingle, hsupply⟩ := h
  exact ⟨created, s, s₁, s₂, t, state₁, state₂, stateT, hcreate, hrun, hfirst, hsecond, hsingle,
    hsupply, accrueFee_twice_le hcreate hrun hfirst hsecond hsingle⟩

end StreamingFeeModule

end IndexProtocol
