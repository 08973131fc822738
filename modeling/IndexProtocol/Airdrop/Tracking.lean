import IndexProtocol.Auction.Bid
import Mathlib.Algebra.Order.Field.Rat
import Mathlib.Tactic.Linarith

/-! What a position is credited with after a change of the balance.

The modules write a default unit from the balance before and after their action. What the
balance had before above the position was airdropped: it is kept out of the unit, so that
only a module that means to absorb it does. -/
namespace IndexProtocol
open Evm PreciseUnitMath
open AuctionRebalanceModuleV1 (Rewritten position_rewritten)

namespace Position

/-- What the default position of a component stands for, rounded down. -/
def trackedBalance (s : SetToken) (component : Address) (supply : Nat) : Nat :=
  supply * (s.defaultRealUnit component).toNat / preciseUnit

/-- What a balance has above that. -/
def airdropped (s : SetToken) (component : Address) (supply before : Nat) : Nat :=
  before - trackedBalance s component supply

/-- What the unit should be, without rounding. -/
def exactUnit (s : SetToken) (component : Address) (supply before after : Nat) : ℚ :=
  ((after : ℚ) - airdropped s component supply before) * preciseUnit / supply

variable {s t : SetToken} {sender component : Address} {supply before after : Nat}

/-- A position is gone when its unit is zero; the component is listed for what others owe or hold
of it only. -/
structure Removed (t : SetToken) (component : Address) : Prop where
  unit : t.defaultPositionVirtualUnit component = 0
  realUnit : t.defaultRealUnit component = 0
  listed : component ∈ t.components ↔ t.externalPositionModules component ≠ []

theorem Removed.of_unit (hwf : t.WellFormed) (hunit : (t.defaultRealUnit component).toNat = 0) :
    Removed t component := by
  have hreal : t.defaultRealUnit component = 0 := by
    have := hwf.defaultRealUnit_nonneg (c := component)
    omega
  have hnone : ¬0 < t.defaultPositionVirtualUnit component := by
    rw [hwf.default_pos_iff, hreal]
    exact lt_irrefl 0
  refine ⟨le_antisymm (not_lt.mp hnone) (hwf.sound.default_nonneg component), hreal, ?_⟩
  rw [hwf.mem_components]
  exact or_iff_right hnone

/-- The unit that is written, from above and from below. -/
structure Credited (s t : SetToken) (component : Address) (supply before after : Nat) : Prop where
  tracked : trackedBalance s component supply ≤ before
  covered : airdropped s component supply before ≤ after
  credited : (t.defaultRealUnit component).toNat * supply ≤
    (after - airdropped s component supply before) * preciseUnit
  close : |exactUnit s component supply before after - (t.defaultRealUnit component).toNat| < 2

theorem Credited.of_rewritten {newUnit : Nat} (hsupply : 0 < supply)
    (hmultiplier : s.positionMultiplier ≤ preciseUnitInt) (hafter : 0 < after)
    (h : Rewritten s.positionMultiplier supply (trackedBalance s component supply) before after
      newUnit (t.defaultRealUnit component).toNat) :
    Credited s t component supply before after := by
  obtain ⟨_, htracked, hcovered⟩ := h.covered hafter
  have hpos : (0 : ℚ) < supply := by exact_mod_cast hsupply
  have hupper := h.credited
  have hlower := h.credited_lt_two hmultiplier hsupply
  refine ⟨htracked, hcovered, hupper, ?_⟩
  have hcast : ((after - airdropped s component supply before : Nat) : ℚ) =
      after - airdropped s component supply before := Nat.cast_sub hcovered
  have hupper' : ((t.defaultRealUnit component).toNat : ℚ) * supply ≤
      (after - airdropped s component supply before) * preciseUnit := by
    rw [← hcast]
    exact_mod_cast hupper
  have hlower' : ((after : ℚ) - airdropped s component supply before) * preciseUnit <
      ((t.defaultRealUnit component).toNat + 2) * supply := by
    rw [← hcast]
    exact_mod_cast hlower
  rw [abs_lt, exactUnit]
  constructor
  · have := (le_div_iff₀ hpos).mpr hupper'
    linarith
  · have := (div_lt_iff₀ hpos).mpr hlower'
    linarith

/-- **Updates of a position leave airdrops alone.** For every SetToken in every state that calls after
its creation lead to, every supply and every balances, an update of a default position credits
no more than the balance without what was airdropped before, and less than two units below
that. It fails where the balance before was below the position, or the balance now is below
what was airdropped, and removes the position when nothing is left. -/
theorem calculateAndEditDefaultPosition_credits {controller : Controller}
    {factory self manager : Address} {components modules : List Address} {units : List Int}
    {calls : List SetToken.Call} {created : SetToken}
    (hcreate : SetTokenCreator.create controller factory self components units modules manager =
      .ok created)
    (hrun : runs SetToken.call created calls = .ok s)
    (hsupply : 0 < supply) (hmultiplier : s.positionMultiplier ≤ preciseUnitInt) :
    (∀ t, 0 < after →
      calculateAndEditDefaultPosition s sender component after supply before = .ok t →
        Credited s t component supply before after) ∧
    (0 < after → before < trackedBalance s component supply ∨
        after < airdropped s component supply before →
      ∀ t, calculateAndEditDefaultPosition s sender component after supply before ≠ .ok t) ∧
    ∀ t, calculateAndEditDefaultPosition s sender component 0 supply before = .ok t →
      Removed t component := by
  have hwf : s.WellFormed := SetToken.reachable_wellFormed hcreate hrun
  have hcredited (t : SetToken) (hafter : 0 < after)
      (h : calculateAndEditDefaultPosition s sender component after supply before = .ok t) :
      Credited s t component supply before after := by
    obtain ⟨_, _, _, _, newUnit, hwritten⟩ := position_rewritten hwf h
    exact .of_rewritten hsupply hmultiplier hafter hwritten
  refine ⟨hcredited, fun hafter hshort t h => ?_, fun t h => ?_⟩
  · obtain ⟨htracked, hcovered, _⟩ := hcredited t hafter h
    omega
  · obtain ⟨_, hwf', _, _, newUnit, hwritten⟩ := position_rewritten hwf h
    exact .of_unit hwf' (hwritten.eq_zero rfl)

/-- Five of fifteen were airdropped, and five more are received: of the twenty fifteen are credited. -/
theorem calculateAndEditDefaultPosition_credits_example : ∃ s t : SetToken,
    (AuctionRebalanceModuleV1.exampleCreation 10 >>= fun s =>
      runs SetToken.call s AuctionRebalanceModuleV1.exampleCalls) = .ok s ∧
    calculateAndEditDefaultPosition s 50 1 20 (10 ^ 18) 15 = .ok t ∧ t.defaultRealUnit 1 = 15 ∧
    Credited s t 1 (10 ^ 18) 15 20 := by
  have h : (do
      let created ← AuctionRebalanceModuleV1.exampleCreation 10
      let s ← runs SetToken.call created AuctionRebalanceModuleV1.exampleCalls
      let t ← calculateAndEditDefaultPosition s 50 1 20 (10 ^ 18) 15
      require (s.positionMultiplier ≤ preciseUnitInt ∧ t.defaultRealUnit 1 = 15) "") = .ok () := by
    decide +kernel
  simp only [bind_eq_ok, require_eq_ok] at h
  obtain ⟨created, hcreate, s, hrun, t, ht, hmultiplier, hunit⟩ := h
  exact ⟨s, t, bind_eq_ok.mpr ⟨created, hcreate, hrun⟩, ht, hunit,
    (calculateAndEditDefaultPosition_credits hcreate hrun (by decide) hmultiplier).1 t (by decide) ht⟩

end Position

end IndexProtocol
