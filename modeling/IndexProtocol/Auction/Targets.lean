import IndexProtocol.Auction.Module
import IndexProtocol.SetToken.Representation

/-! When a target is met, and when that can be computed.

A target is met if the unit is at most one away from it. The comparison computes
one less than the unit it compares with, also where that unit is zero; it then
reverts instead of answering. -/
namespace IndexProtocol
open Evm PreciseUnitMath ModuleBase

namespace PreciseUnitMath

theorem approximatelyEquals_eq_ok {a b range : Nat} {r : Bool} :
    approximatelyEquals a b range = .ok r ↔
      b + range < uintBound ∧ (a ≤ b + range → range ≤ b) ∧
        r = decide (a ≤ b + range ∧ b ≤ a + range) := by
  simp only [approximatelyEquals, bind_eq_ok, SafeMath.add_eq_ok]
  constructor
  · rintro ⟨_, ⟨hbound, rfl⟩, h⟩
    refine ⟨hbound, ?_⟩
    by_cases hupper : a ≤ b + range
    · rw [if_pos hupper] at h
      simp only [bind_eq_ok, SafeMath.sub_eq_ok, pure_eq_ok] at h
      obtain ⟨_, ⟨hlow, rfl⟩, rfl⟩ := h
      refine ⟨fun _ => hlow, decide_eq_decide.mpr ?_⟩
      omega
    · rw [if_neg hupper] at h
      obtain rfl := pure_eq_ok.mp h
      refine ⟨fun hle => absurd hle hupper, (decide_eq_false ?_).symm⟩
      exact fun hboth => hupper hboth.1
  · rintro ⟨hbound, hlow, rfl⟩
    refine ⟨_, ⟨hbound, rfl⟩, ?_⟩
    by_cases hupper : a ≤ b + range
    · rw [if_pos hupper]
      refine bind_eq_ok.mpr ⟨_, SafeMath.sub_eq_ok.mpr ⟨hlow hupper, rfl⟩, pure_eq_ok.mpr ?_⟩
      have := hlow hupper
      refine decide_eq_decide.mpr ?_
      omega
    · rw [if_neg hupper]
      refine pure_eq_ok.mpr (decide_eq_false ?_).symm
      exact fun hboth => hupper hboth.1

end PreciseUnitMath

namespace SetToken
variable {s : SetToken} (hwf : s.WellFormed)
include hwf

/-- The unit of a component, read as a number. -/
theorem WellFormed.realUnit_eq_ok {component : Address} {unit : Nat} :
    (do
      let realUnit ← s.getDefaultPositionRealUnit component
      SafeCast.toUint256 realUnit) = .ok unit ↔
      InInt256 (s.defaultPositionVirtualUnit component * s.positionMultiplier) ∧
        (s.defaultRealUnit component).toNat = unit := by
  have hnonneg := hwf.defaultRealUnit_nonneg (c := component)
  simp only [bind_eq_ok, SetToken.getDefaultPositionRealUnit_eq_ok, SafeCast.toUint256_eq_ok]
  constructor
  · rintro ⟨_, ⟨hin, rfl⟩, hunit⟩
    exact ⟨hin, by omega⟩
  · rintro ⟨hin, rfl⟩
    exact ⟨_, ⟨hin, rfl⟩, by omega⟩

/-- A target that was set for another multiplier, for the one that there is. -/
theorem WellFormed.normalized_eq_ok {targetUnit multiplier unit : Nat} :
    (do
      let positionMultiplier ← SafeCast.toUint256 s.positionMultiplier
      let product ← SafeMath.mul targetUnit positionMultiplier
      SafeMath.div product multiplier) = .ok unit ↔
      targetUnit * s.positionMultiplier.toNat < uintBound ∧ 0 < multiplier ∧
        targetUnit * s.positionMultiplier.toNat / multiplier = unit := by
  have hpos := hwf.multiplier_pos
  simp only [bind_eq_ok, SafeCast.toUint256_eq_ok, SafeMath.mul_eq_ok, SafeMath.div_eq_ok]
  constructor
  · rintro ⟨positionMultiplier, hmultiplier, _, ⟨hbound, rfl⟩, hrebalance, rfl⟩
    rw [hmultiplier, Int.toNat_natCast]
    exact ⟨hbound, hrebalance, rfl⟩
  · rintro ⟨hbound, hrebalance, rfl⟩
    exact ⟨_, by omega, _, ⟨hbound, rfl⟩, hrebalance, rfl⟩

end SetToken

namespace AuctionRebalanceModuleV1
variable {w v : AuctionWorld} {component : Address}

/-! ### Units as numbers -/

/-- The unit that the SetToken has of a component. -/
def currentUnit (w : AuctionWorld) (component : Address) : Nat :=
  (w.setToken.defaultRealUnit component).toNat

/-- The unit that it should have, for its multiplier. -/
def normalizedTarget (w : AuctionWorld) (component : Address) : Nat :=
  (w.rest.executionInfo component).targetUnit * w.setToken.positionMultiplier.toNat /
    (rebalance w).positionMultiplier

/-- Both units of a component can be computed: no product leaves its type, and the multiplier of
the rebalance is not zero. -/
structure Readable (w : AuctionWorld) (component : Address) : Prop where
  unit : InInt256
    (w.setToken.defaultPositionVirtualUnit component * w.setToken.positionMultiplier)
  target : (w.rest.executionInfo component).targetUnit * w.setToken.positionMultiplier.toNat <
    uintBound
  multiplier : 0 < (rebalance w).positionMultiplier

section Units
variable (hwf : w.setToken.WellFormed)
include hwf

theorem getDefaultPositionRealUnit_eq_ok {unit : Nat} :
    getDefaultPositionRealUnit w component = .ok unit ↔
      InInt256 (w.setToken.defaultPositionVirtualUnit component * w.setToken.positionMultiplier) ∧
        currentUnit w component = unit :=
  hwf.realUnit_eq_ok

theorem getNormalizedTargetUnit_eq_ok {unit : Nat} :
    getNormalizedTargetUnit w component = .ok unit ↔
      (w.rest.executionInfo component).targetUnit * w.setToken.positionMultiplier.toNat <
          uintBound ∧
        0 < (rebalance w).positionMultiplier ∧ normalizedTarget w component = unit :=
  hwf.normalized_eq_ok

/-- A unit is far below what a `uint256` holds. -/
theorem currentUnit_lt
    (hin : InInt256
      (w.setToken.defaultPositionVirtualUnit component * w.setToken.positionMultiplier)) :
    currentUnit w component + 1 < uintBound := by
  have hnonneg := hwf.defaultRealUnit_nonneg (c := component)
  have hscaled : w.setToken.defaultRealUnit component ≤
      w.setToken.defaultPositionVirtualUnit component * w.setToken.positionMultiplier :=
    Int.ediv_le_self _ (Int.mul_nonneg (hwf.sound.default_nonneg component) hwf.multiplier_pos.le)
  have hlt := hin.2
  rw [currentUnit]
  unfold intBound at hlt
  unfold uintBound
  omega

end Units

/-! ### One target -/

/-- The unit is the target, or next to it; a target of zero is met by no unit. -/
def Met (w : AuctionWorld) (component : Address) : Prop :=
  component = (rebalance w).quoteAsset ∨
    normalizedTarget w component ≤ currentUnit w component + 1 ∧
      currentUnit w component ≤ normalizedTarget w component + 1 ∧
        (normalizedTarget w component = 0 → currentUnit w component = 0)

instance (w : AuctionWorld) (component : Address) : Decidable (Met w component) :=
  inferInstanceAs (Decidable (_ ∨ _))

/-- Whether a target is met can be computed: a target of one is not compared with no unit. -/
def TargetEvaluates (w : AuctionWorld) (component : Address) : Prop :=
  component ≠ (rebalance w).quoteAsset → Readable w component ∧
    ¬(normalizedTarget w component = 1 ∧ currentUnit w component = 0)

theorem targetUnmet_eq_ok (hwf : w.setToken.WellFormed) {unmet : Bool} :
    targetUnmet w component = .ok unmet ↔
      TargetEvaluates w component ∧ unmet = decide (¬Met w component) := by
  unfold targetUnmet TargetEvaluates Met
  by_cases hquote : component = (rebalance w).quoteAsset
  · rw [if_pos hquote, pure_eq_ok]
    simp [hquote, eq_comm]
  · rw [if_neg hquote]
    simp only [bind_eq_ok, getNormalizedTargetUnit_eq_ok hwf, getDefaultPositionRealUnit_eq_ok hwf,
      hquote, ne_eq, not_false_eq_true, true_imp_iff, false_or]
    constructor
    · rintro ⟨_, ⟨htarget, hmultiplier, rfl⟩, _, ⟨hunit, rfl⟩, h⟩
      have hlt := currentUnit_lt hwf hunit
      by_cases hpos : 0 < normalizedTarget w component
      · rw [if_pos hpos] at h
        simp only [bind_eq_ok, approximatelyEquals_eq_ok, pure_eq_ok] at h
        obtain ⟨_, ⟨_, hlow, rfl⟩, rfl⟩ := h
        refine ⟨⟨⟨hunit, htarget, hmultiplier⟩, by omega⟩, ?_⟩
        rw [← decide_not, decide_eq_decide]
        omega
      · rw [if_neg hpos] at h
        obtain rfl := pure_eq_ok.mp h
        refine ⟨⟨⟨hunit, htarget, hmultiplier⟩, by omega⟩, decide_eq_decide.mpr ?_⟩
        omega
    · rintro ⟨⟨hreadable, hcompared⟩, rfl⟩
      have hlt := currentUnit_lt hwf hreadable.unit
      refine ⟨_, ⟨hreadable.target, hreadable.multiplier, rfl⟩, _, ⟨hreadable.unit, rfl⟩, ?_⟩
      by_cases hpos : 0 < normalizedTarget w component
      · rw [if_pos hpos]
        simp only [bind_eq_ok, approximatelyEquals_eq_ok, pure_eq_ok]
        refine ⟨_, ⟨hlt, by omega, rfl⟩, ?_⟩
        rw [← decide_not, decide_eq_decide]
        omega
      · rw [if_neg hpos]
        refine pure_eq_ok.mpr (decide_eq_decide.mpr ?_)
        omega

end AuctionRebalanceModuleV1

end IndexProtocol
