import IndexProtocol.Controller
import IndexProtocol.Erc20
import IndexProtocol.PreciseUnitMath

/-! The SetToken and its positions.

A component has a default position, held by the SetToken itself, and external
positions, held elsewhere by its position modules. Positions are kept in virtual
units; a real unit is the virtual unit times the position multiplier, rounded to
the lesser number. The unit of a default position that does not exist is 0. -/
namespace IndexProtocol
open Evm PreciseUnitMath

inductive ModuleState where
  | none
  | pending
  | initialized
  deriving DecidableEq, Repr

structure ExternalPosition where
  virtualUnit : Int
  data : List UInt8
  deriving DecidableEq, Repr

structure ComponentPosition where
  virtualUnit : Int
  externalPositionModules : List Address
  externalPositions : Address → ExternalPosition

structure SetToken where
  /-- The address the SetToken is deployed at. -/
  self : Address
  /-- Its own shares. -/
  erc20 : Erc20
  controller : Controller
  manager : Address
  locker : Address
  modules : List Address
  moduleStates : Address → ModuleState
  isLocked : Bool
  components : List Address
  componentPositions : Address → ComponentPosition
  positionMultiplier : Int

/-- The values of the mappings where nothing was written. -/
def ExternalPosition.empty : ExternalPosition := ⟨0, []⟩

def ComponentPosition.empty : ComponentPosition := ⟨0, [], fun _ => .empty⟩

namespace SetToken
variable (s : SetToken)

def totalSupply : Nat := s.erc20.totalSupply

def defaultPositionVirtualUnit (component : Address) : Int :=
  (s.componentPositions component).virtualUnit

def externalPositionModules (component : Address) : List Address :=
  (s.componentPositions component).externalPositionModules

def externalPositionVirtualUnit (component module : Address) : Int :=
  ((s.componentPositions component).externalPositions module).virtualUnit

def externalPositionData (component module : Address) : List UInt8 :=
  ((s.componentPositions component).externalPositions module).data

/-! ### Virtual and real units -/

def convertVirtualToRealUnit (virtualUnit : Int) : Result Int :=
  conservativePreciseMul virtualUnit s.positionMultiplier

/-- A positive unit must not be lost to rounding, in either direction. -/
def convertRealToVirtualUnit (realUnit : Int) : Result Int := do
  let virtualUnit ← conservativePreciseDiv realUnit s.positionMultiplier
  require (¬(0 < realUnit ∧ virtualUnit = 0)) "Real to Virtual unit conversion invalid"
  if 0 < realUnit then
    let back ← s.convertVirtualToRealUnit virtualUnit
    require (back ≠ 0) "Virtual to Real unit conversion invalid"
    pure virtualUnit
  else pure virtualUnit

def getDefaultPositionRealUnit (component : Address) : Result Int :=
  s.convertVirtualToRealUnit (s.defaultPositionVirtualUnit component)

def getExternalPositionRealUnit (component module : Address) : Result Int :=
  s.convertVirtualToRealUnit (s.externalPositionVirtualUnit component module)

def isComponent (component : Address) : Bool := AddressArrayUtils.contains s.components component

def isExternalPositionModule (component module : Address) : Bool :=
  AddressArrayUtils.contains (s.externalPositionModules component) module

def isInitializedModule (module : Address) : Bool := s.moduleStates module == .initialized

def isPendingModule (module : Address) : Bool := s.moduleStates module == .pending

/-- The sum of the default and the external units of a component. -/
def getTotalComponentRealUnits (component : Address) : Result Int := do
  let totalUnits ← s.getDefaultPositionRealUnit component
  runs (fun totalUnits module => do
      SignedSafeMath.add totalUnits (← s.getExternalPositionRealUnit component module))
    totalUnits (s.externalPositionModules component)

/-! ### The smallest unit -/

/-- In 256 bits the least integer has no absolute value. -/
def absoluteValue (a : Int) : Result Nat :=
  if 0 ≤ a then SafeCast.toUint256 a else SafeCast.toUint256 (wrapInt (-a))

def lowerMinimum (minimumUnit unit : Nat) : Nat :=
  if 0 < unit ∧ unit < minimumUnit then unit else minimumUnit

/-- The smallest absolute virtual unit of the positions, over all components. -/
def getPositionsAbsMinimumVirtualUnit : Result Int := do
  let minimumUnit ← runs (fun minimumUnit component => do
      let defaultUnit ← SafeCast.toUint256 (s.defaultPositionVirtualUnit component)
      runs (fun minimumUnit currentModule => do
          let virtualUnit ← absoluteValue (s.externalPositionVirtualUnit component currentModule)
          pure (lowerMinimum minimumUnit virtualUnit))
        (lowerMinimum minimumUnit defaultUnit) (s.externalPositionModules component))
    (uintBound - 1) s.components
  SafeCast.toInt256 minimumUnit

/-- No position may round to zero under the new multiplier. -/
def validateNewMultiplier (newMultiplier : Int) : Result Unit := do
  let minVirtualUnit ← s.getPositionsAbsMinimumVirtualUnit
  let product ← conservativePreciseMul minVirtualUnit newMultiplier
  require (0 < product) "New multiplier too small"

/-! ### Real units as numbers -/

/-- The real unit of a virtual unit under a multiplier, as a number. -/
def scale (multiplier virtualUnit : Int) : Int := virtualUnit * multiplier / preciseUnitInt

def defaultRealUnit (component : Address) : Int :=
  scale s.positionMultiplier (s.defaultPositionVirtualUnit component)

def externalRealUnit (component module : Address) : Int :=
  scale s.positionMultiplier (s.externalPositionVirtualUnit component module)

variable {s}

theorem scale_zero (multiplier : Int) : scale multiplier 0 = 0 := by
  simp [scale]

theorem scale_neg {multiplier v : Int} (hm : 0 < multiplier) (hv : v < 0) :
    scale multiplier v < 0 :=
  Rounding.floor_neg (Int.mul_neg_of_neg_of_pos hv hm) preciseUnitInt_pos

theorem scale_nonneg {multiplier v : Int} (hm : 0 < multiplier) (hv : 0 ≤ v) :
    0 ≤ scale multiplier v :=
  Int.ediv_nonneg (Int.mul_nonneg hv hm.le) preciseUnitInt_pos.le

theorem scale_mono {multiplier v v' : Int} (hm : 0 < multiplier) (hv : v ≤ v') :
    scale multiplier v ≤ scale multiplier v' :=
  Int.ediv_le_ediv preciseUnitInt_pos (Int.mul_le_mul_of_nonneg_right hv hm.le)

@[simp] theorem convertVirtualToRealUnit_eq_ok {v r : Int} :
    s.convertVirtualToRealUnit v = .ok r ↔
      InInt256 (v * s.positionMultiplier) ∧ scale s.positionMultiplier v = r := by
  simp [convertVirtualToRealUnit, scale]

theorem getDefaultPositionRealUnit_eq_ok {component : Address} {r : Int} :
    s.getDefaultPositionRealUnit component = .ok r ↔
      InInt256 (s.defaultPositionVirtualUnit component * s.positionMultiplier) ∧
        s.defaultRealUnit component = r :=
  convertVirtualToRealUnit_eq_ok

theorem getExternalPositionRealUnit_eq_ok {component module : Address} {r : Int} :
    s.getExternalPositionRealUnit component module = .ok r ↔
      InInt256 (s.externalPositionVirtualUnit component module * s.positionMultiplier) ∧
        s.externalRealUnit component module = r :=
  convertVirtualToRealUnit_eq_ok

/-- What a real unit becomes. Positive units stay positive on the way back. -/
theorem convertRealToVirtualUnit_eq_ok (hm : 0 < s.positionMultiplier) {r v : Int} :
    s.convertRealToVirtualUnit r = .ok v ↔
      InInt256 (r * preciseUnitInt) ∧ r * preciseUnitInt / s.positionMultiplier = v ∧
        (0 < r → InInt256 (v * s.positionMultiplier) ∧ 0 < scale s.positionMultiplier v) := by
  simp only [convertRealToVirtualUnit, bind_eq_ok, conservativePreciseDiv_eq_ok hm, require_eq_ok,
    exists_const]
  constructor
  · rintro ⟨_, ⟨hin, rfl⟩, hnonzero, h⟩
    split at h <;> rename_i hr
    · simp only [bind_eq_ok, convertVirtualToRealUnit_eq_ok, require_eq_ok, exists_const,
        pure_eq_ok] at h
      obtain ⟨_, ⟨hback, rfl⟩, hne, rfl⟩ := h
      have hv : 0 ≤ r * preciseUnitInt / s.positionMultiplier :=
        Int.ediv_nonneg (Int.mul_nonneg hr.le preciseUnitInt_pos.le) hm.le
      exact ⟨hin, rfl, fun _ => ⟨hback, lt_of_le_of_ne (scale_nonneg hm hv) (Ne.symm hne)⟩⟩
    · exact ⟨hin, by simpa using h, fun h => absurd h hr⟩
  · rintro ⟨hin, rfl, h⟩
    refine ⟨_, ⟨hin, rfl⟩, ?_, ?_⟩
    · rintro ⟨hr, hzero⟩
      have := (h hr).2
      rw [hzero, scale_zero] at this
      exact absurd this (lt_irrefl 0)
    · split <;> rename_i hr
      · simp only [bind_eq_ok, convertVirtualToRealUnit_eq_ok, require_eq_ok, exists_const,
          pure_eq_ok]
        exact ⟨_, ⟨(h hr).1, rfl⟩, (h hr).2.ne', trivial⟩
      · rfl

/-- The real units that a virtual one stands for, rounded up. -/
def unitStep (multiplier : Int) : Nat := multiplier.toNat ⌈/⌉ preciseUnit

theorem le_unitStep (multiplier : Int) : multiplier ≤ unitStep multiplier * preciseUnitInt := by
  refine (Int.self_le_toNat multiplier).trans ?_
  rw [← preciseUnit_cast]
  exact_mod_cast Rounding.le_ceil_mul multiplier.toNat preciseUnit_pos

theorem unitStep_le_one {multiplier : Int} (h : multiplier ≤ preciseUnitInt) :
    unitStep multiplier ≤ 1 := by
  rw [unitStep, ceilDiv_le_iff_le_mul preciseUnit_pos, Nat.mul_one]
  rw [← preciseUnit_cast] at h
  omega

/-- What a virtual unit reads back as is the real unit, or less by one step at most. -/
theorem scale_bounds (hm : 0 < s.positionMultiplier) {r v : Int}
    (h : s.convertRealToVirtualUnit r = .ok v) :
    scale s.positionMultiplier v ≤ r ∧
      r - unitStep s.positionMultiplier ≤ scale s.positionMultiplier v := by
  obtain ⟨_, rfl, _⟩ := (convertRealToVirtualUnit_eq_ok hm).mp h
  exact ⟨Rounding.roundTrip_le r hm preciseUnitInt_pos,
    Rounding.le_roundTrip r hm preciseUnitInt_pos (le_unitStep s.positionMultiplier)⟩

theorem sub_one_le_scale (hm : 0 < s.positionMultiplier)
    (hle : s.positionMultiplier ≤ preciseUnitInt) {r v : Int}
    (h : s.convertRealToVirtualUnit r = .ok v) : r - 1 ≤ scale s.positionMultiplier v := by
  have hstep := unitStep_le_one hle
  have hbound := (scale_bounds hm h).2
  omega

/-! ### The smallest unit, bounded -/

theorem lowerMinimum_le (minimumUnit unit : Nat) : lowerMinimum minimumUnit unit ≤ minimumUnit := by
  unfold lowerMinimum
  split <;> omega

theorem lowerMinimum_le_unit (minimumUnit : Nat) {unit : Nat} (h : 0 < unit) :
    lowerMinimum minimumUnit unit ≤ unit := by
  unfold lowerMinimum
  split <;> omega

theorem absoluteValue_of_pos {a : Int} {n : Nat} (ha : 0 < a) (h : absoluteValue a = .ok n) :
    a = n := by
  rw [absoluteValue, if_pos ha.le] at h
  exact SafeCast.toUint256_eq_ok.mp h

/-- The minimum bounds every positive unit of every position from below. -/
theorem getPositionsAbsMinimumVirtualUnit_le {minimum : Int}
    (h : s.getPositionsAbsMinimumVirtualUnit = .ok minimum) :
    0 ≤ minimum ∧ ∀ component ∈ s.components,
      (0 < s.defaultPositionVirtualUnit component →
        minimum ≤ s.defaultPositionVirtualUnit component) ∧
      ∀ module ∈ s.externalPositionModules component,
        0 < s.externalPositionVirtualUnit component module →
          minimum ≤ s.externalPositionVirtualUnit component module := by
  simp only [getPositionsAbsMinimumVirtualUnit, bind_eq_ok, SafeCast.toInt256_eq_ok] at h
  obtain ⟨m, h, _, rfl⟩ := h
  refine ⟨Int.natCast_nonneg m, ?_⟩
  -- Both loops only ever lower the minimum, so what one round establishes stays.
  refine (runs_each (R := fun (m m' : Nat) => m' ≤ m) le_refl (fun h₁ h₂ => h₂.trans h₁)
    (Q := fun component (m : Nat) => (0 < s.defaultPositionVirtualUnit component →
        (m : Int) ≤ s.defaultPositionVirtualUnit component) ∧
      ∀ module ∈ s.externalPositionModules component,
        0 < s.externalPositionVirtualUnit component module →
          (m : Int) ≤ s.externalPositionVirtualUnit component module) ?_ ?_ h).2
  · rintro component m m' ⟨hdefault, hexternal⟩ hle
    have hcast : (m' : Int) ≤ m := Int.ofNat_le.mpr hle
    exact ⟨fun h => hcast.trans (hdefault h), fun module hm h => hcast.trans (hexternal module hm h)⟩
  · intro m component m' h
    simp only [bind_eq_ok, SafeCast.toUint256_eq_ok] at h
    obtain ⟨defaultUnit, hunit, h⟩ := h
    obtain ⟨hle, hexternal⟩ := runs_each (R := fun (m m' : Nat) => m' ≤ m) le_refl
      (fun h₁ h₂ => h₂.trans h₁)
      (Q := fun module (m : Nat) => 0 < s.externalPositionVirtualUnit component module →
        (m : Int) ≤ s.externalPositionVirtualUnit component module)
      (fun hm hle hpos => (Int.ofNat_le.mpr hle).trans (hm hpos))
      (fun m module m' h => by
        simp only [bind_eq_ok, pure_eq_ok] at h
        obtain ⟨unit, hunit, rfl⟩ := h
        refine ⟨lowerMinimum_le m unit, fun hpos => ?_⟩
        have habs := absoluteValue_of_pos hpos hunit
        rw [habs] at hpos ⊢
        exact Int.ofNat_le.mpr (lowerMinimum_le_unit m (Int.natCast_pos.mp hpos))) h
    refine ⟨hle.trans (lowerMinimum_le m defaultUnit), fun hpos => ?_, hexternal⟩
    rw [hunit] at hpos ⊢
    exact Int.ofNat_le.mpr (hle.trans (lowerMinimum_le_unit m (Int.natCast_pos.mp hpos)))

/-- An accepted multiplier is positive and takes no positive unit to zero. -/
theorem validateNewMultiplier_pos {newMultiplier : Int} {u : Unit}
    (h : s.validateNewMultiplier newMultiplier = .ok u) :
    0 < newMultiplier ∧ ∀ component ∈ s.components,
      (0 < s.defaultPositionVirtualUnit component →
        0 < scale newMultiplier (s.defaultPositionVirtualUnit component)) ∧
      ∀ module ∈ s.externalPositionModules component,
        0 < s.externalPositionVirtualUnit component module →
          0 < scale newMultiplier (s.externalPositionVirtualUnit component module) := by
  simp only [validateNewMultiplier, bind_eq_ok, conservativePreciseMul_eq_ok, require_eq_ok] at h
  obtain ⟨minimum, hminimum, _, ⟨_, rfl⟩, hpos⟩ := h
  obtain ⟨hnonneg, hle⟩ := getPositionsAbsMinimumVirtualUnit_le hminimum
  have hm : 0 < newMultiplier := by
    by_contra hneg
    have := Int.ediv_nonpos_of_nonpos_of_neg
      (Int.mul_nonpos_of_nonneg_of_nonpos hnonneg (not_lt.mp hneg)) preciseUnitInt_pos
    omega
  exact ⟨hm, fun component hc => ⟨fun hv => hpos.trans_le (scale_mono hm ((hle component hc).1 hv)),
    fun module hmod hv => hpos.trans_le (scale_mono hm ((hle component hc).2 module hmod hv))⟩⟩

end SetToken

end IndexProtocol
