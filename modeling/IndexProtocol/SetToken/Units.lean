import IndexProtocol.SetToken.Representation

/-! Units through the multiplier and back.

A real unit is kept as a virtual unit, divided by the position multiplier and rounded down, and read
back by a product that is rounded down again. Nothing is gained on the way and at most one is lost.
A debt may be rounded beyond the least integer, though: it is stored and can not be read. -/
namespace IndexProtocol.SetToken
open Evm PreciseUnitMath

variable {s : SetToken} {r v : Int}

/-- The product that is divided when the unit is read back. -/
theorem virtual_mul (hm : 0 < s.positionMultiplier) (h : s.convertRealToVirtualUnit r = .ok v) :
    v * s.positionMultiplier =
      r * preciseUnitInt - r * preciseUnitInt % s.positionMultiplier := by
  obtain ⟨_, rfl, _⟩ := (convertRealToVirtualUnit_eq_ok hm).mp h
  exact eq_sub_of_add_eq (Int.ediv_mul_add_emod _ _)

/-- Rounding leaves the range at its lower end only. -/
theorem readable_iff (hm : 0 < s.positionMultiplier) (h : s.convertRealToVirtualUnit r = .ok v) :
    (∃ r', s.convertVirtualToRealUnit v = .ok r') ↔
      r * preciseUnitInt % s.positionMultiplier ≤ r * preciseUnitInt + intBound := by
  obtain ⟨⟨_, hhigh⟩, _, _⟩ := (convertRealToVirtualUnit_eq_ok hm).mp h
  have hmod : 0 ≤ r * preciseUnitInt % s.positionMultiplier := Int.emod_nonneg _ hm.ne'
  simp only [convertVirtualToRealUnit_eq_ok, exists_and_left, exists_eq', and_true]
  rw [virtual_mul hm h, InInt256]
  constructor
  · rintro ⟨hlow, _⟩
    omega
  · intro hlow
    omega

/-- The unit that is read back has the sign of the unit that was stored. -/
theorem scale_sign (hm : 0 < s.positionMultiplier) (h : s.convertRealToVirtualUnit r = .ok v) :
    (scale s.positionMultiplier v).sign = r.sign := by
  obtain ⟨hpos, hzero, hneg, hback⟩ := convertRealToVirtualUnit_sign hm h
  cases lt_trichotomy r 0 with
  | inl hr => rw [Int.sign_eq_neg_one_of_neg hr, Int.sign_eq_neg_one_of_neg (scale_neg hm (hneg hr))]
  | inr hr =>
    cases hr with
    | inl hr => rw [hr, hzero hr, scale_zero]
    | inr hr => rw [Int.sign_eq_one_of_pos hr, Int.sign_eq_one_of_pos (hback (hpos hr))]

theorem convertRealToVirtualUnit_mono (hm : 0 < s.positionMultiplier) {r' v' : Int}
    (h : s.convertRealToVirtualUnit r = .ok v) (h' : s.convertRealToVirtualUnit r' = .ok v')
    (hle : r ≤ r') : v ≤ v' := by
  obtain ⟨_, rfl, _⟩ := (convertRealToVirtualUnit_eq_ok hm).mp h
  obtain ⟨_, rfl, _⟩ := (convertRealToVirtualUnit_eq_ok hm).mp h'
  exact Int.ediv_le_ediv hm (Int.mul_le_mul_of_nonneg_right hle preciseUnitInt_pos.le)

theorem convertVirtualToRealUnit_mono (hm : 0 < s.positionMultiplier) {r' v' : Int}
    (h : s.convertVirtualToRealUnit v = .ok r) (h' : s.convertVirtualToRealUnit v' = .ok r')
    (hle : v ≤ v') : r ≤ r' := by
  obtain ⟨_, rfl⟩ := convertVirtualToRealUnit_eq_ok.mp h
  obtain ⟨_, rfl⟩ := convertVirtualToRealUnit_eq_ok.mp h'
  exact scale_mono hm hle

/-- **A unit loses at most one** on the way to a virtual unit and back, and gains nothing. It reads
back exactly if the remainder that rounding takes from its product stays in the range. -/
theorem unit_roundTrip (hm : 0 < s.positionMultiplier) (hle : s.positionMultiplier ≤ preciseUnitInt) :
    (∀ {r v : Int}, s.convertRealToVirtualUnit r = .ok v →
      ((∃ r', s.convertVirtualToRealUnit v = .ok r') ↔
        r * preciseUnitInt % s.positionMultiplier ≤ r * preciseUnitInt + intBound) ∧
      ∀ {r'}, s.convertVirtualToRealUnit v = .ok r' →
        r - 1 ≤ r' ∧ r' ≤ r ∧ r'.sign = r.sign) ∧
    (∀ {r r' v v' : Int}, s.convertRealToVirtualUnit r = .ok v →
      s.convertRealToVirtualUnit r' = .ok v' → r ≤ r' → v ≤ v') ∧
    ∀ {r r' v v' : Int}, s.convertVirtualToRealUnit v = .ok r →
      s.convertVirtualToRealUnit v' = .ok r' → v ≤ v' → r ≤ r' := by
  refine ⟨fun {r v} h => ⟨readable_iff hm h, fun {r'} hback => ?_⟩,
    convertRealToVirtualUnit_mono hm, convertVirtualToRealUnit_mono hm⟩
  obtain ⟨_, rfl⟩ := convertVirtualToRealUnit_eq_ok.mp hback
  exact ⟨sub_one_le_scale hm hle h, (scale_bounds hm h).1, scale_sign hm h⟩

/-- A SetToken with a multiplier. -/
def exampleScaled (multiplier : Int) : SetToken :=
  { construct 20 [1] [10 ^ 18] [10] exampleController 9 with positionMultiplier := multiplier }

/-- Ten is nine when it comes back through nine tenths. -/
theorem unit_roundTrip_example :
    ∃ v, (exampleScaled (9 * 10 ^ 17)).convertRealToVirtualUnit 10 = .ok v ∧
      (exampleScaled (9 * 10 ^ 17)).convertVirtualToRealUnit v = .ok 9 ∧ (10 : Int) - 1 ≤ 9 := by
  have hstored : (exampleScaled (9 * 10 ^ 17)).convertRealToVirtualUnit 10 = .ok 11 := by
    decide +kernel
  have hread : (exampleScaled (9 * 10 ^ 17)).convertVirtualToRealUnit 11 = .ok 9 := by
    decide +kernel
  have hroundTrip := unit_roundTrip (s := exampleScaled (9 * 10 ^ 17)) (by decide) (by decide)
  exact ⟨11, hstored, hread, ((hroundTrip.1 hstored).2 hread).1⟩

/-- A debt that is stored and can not be read. -/
theorem debt_unreadable :
    (0 < (exampleScaled 999999999999999987).positionMultiplier ∧
      (exampleScaled 999999999999999987).positionMultiplier ≤ preciseUnitInt) ∧
    ((exampleScaled 999999999999999987).convertRealToVirtualUnit
      (-57896044618658097711785492504343953926634992332820282019728)).toBool = true ∧
    ((exampleScaled 999999999999999987).convertRealToVirtualUnit
        (-57896044618658097711785492504343953926634992332820282019728) >>=
      (exampleScaled 999999999999999987).convertVirtualToRealUnit).toBool = false := by
  decide +kernel

end IndexProtocol.SetToken
