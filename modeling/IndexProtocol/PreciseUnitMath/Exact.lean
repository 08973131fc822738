import IndexProtocol.PreciseUnitMath
import IndexProtocol.Rounding.Quotient

/-! The roundings of the library are exact.

Each function that rounds to a side returns the rational quotient rounded to that side, in the whole
range of its type. It reverts only for a divisor of zero, or where the product that is divided or
the result leaves the range. -/
namespace IndexProtocol.PreciseUnitMath
open Evm Rounding

variable {a b c : Int}

/-! ### Signs -/

theorem signsDiffer_eq_true : signsDiffer a b = true ↔ ¬(a < 0 ↔ b < 0) := by
  rw [signsDiffer, bne_iff_ne, ne_eq, decide_eq_decide]

/-- The exclusive or is positive where the signs agree and the numbers differ. -/
theorem xorInt_pos (ha : InInt256 a) (hb : InInt256 b) :
    0 < xorInt a b ↔ (a < 0 ↔ b < 0) ∧ a ≠ b := by
  have hneg : xorInt a b < 0 ↔ ¬(a < 0 ↔ b < 0) := (xorInt_neg ha hb).trans signsDiffer_eq_true
  rw [lt_iff_le_and_ne, ne_comm, Ne, xorInt_eq_zero ha hb, ← not_lt, hneg, not_not]

/-- Without a remainder there is nothing to round. -/
theorem away_of_exact (hb : b ≠ 0) (hmod : a.tmod b = 0) : awayFromZero (a / b) = a.tdiv b := by
  have hmul : a.tdiv b * b = a := Int.tdiv_mul_cancel (Int.dvd_iff_tmod_eq_zero.mpr hmod)
  have hquotient : (a : ℚ) / b = ((a.tdiv b : ℤ) : ℚ) := by
    rw [div_eq_iff (Int.cast_ne_zero.mpr hb), ← Int.cast_mul, hmul]
  rw [hquotient, awayFromZero_intCast]

/-- With one, the quotient is a step further from zero than the truncated one. -/
theorem away_of_remainder (hb : b ≠ 0) (hmod : a.tmod b ≠ 0) :
    awayFromZero (a / b) = if a < 0 ↔ b < 0 then a.tdiv b + 1 else a.tdiv b - 1 := by
  by_cases hsigns : a < 0 ↔ b < 0
  · have hne : a ≠ 0 := fun ha => hmod (by rw [ha, Int.zero_tmod])
    have hdiffer : signsDiffer (-a) b = true := by
      rw [signsDiffer_eq_true]
      omega
    have hmod' : (-a).tmod b ≠ 0 := by rwa [Int.neg_tmod, neg_ne_zero]
    rw [if_pos hsigns, awayFromZero_eq_ceil hsigns, ← neg_fdiv_eq_ceil, floor_eq_tdiv _ _ hb,
      if_pos ⟨hdiffer, hmod'⟩, Int.neg_tdiv]
    omega
  · rw [if_neg hsigns, awayFromZero_eq_floor hsigns, ← fdiv_eq_floor, floor_eq_tdiv _ _ hb,
      if_pos ⟨signsDiffer_eq_true.mpr hsigns, hmod⟩]

/-- What the body of `preciseDivCeilInt` computes is the quotient rounded away from zero. -/
theorem away_eq_tdiv (ha : InInt256 a) (hb : InInt256 b) (hne : b ≠ 0) :
    awayFromZero (a / b) =
      if a.tmod b ≠ 0 then if 0 < xorInt a b then a.tdiv b + 1 else a.tdiv b - 1
      else a.tdiv b := by
  by_cases hmod : a.tmod b = 0
  · rw [if_neg (not_not.mpr hmod), away_of_exact hne hmod]
  · have hdistinct : a ≠ b := by
      rintro rfl
      exact hmod Int.tmod_self
    have hpos : 0 < xorInt a b ↔ (a < 0 ↔ b < 0) :=
      (xorInt_pos ha hb).trans (and_iff_left hdistinct)
    rw [if_pos hmod, away_of_remainder hne hmod]
    simp only [hpos]

/-- The step stays in the range, since a remainder needs a divisor of at least two. -/
theorem away_in (ha : InInt256 a) (hne : b ≠ 0) (hmod : a.tmod b ≠ 0) :
    InInt256 (a.tdiv b + 1) ∧ InInt256 (a.tdiv b - 1) := by
  have hone : b ≠ 1 := by
    rintro rfl
    exact hmod (Int.tmod_one a)
  have hminus : b ≠ -1 := by
    rintro rfl
    exact hmod (by rw [Int.tmod_neg, Int.tmod_one])
  have hhalf : (a.tdiv b).natAbs ≤ a.natAbs / 2 := by
    rw [Int.natAbs_tdiv]
    exact Nat.div_le_div_left (by omega) (by decide)
  obtain ⟨hlow, hhigh⟩ := ha
  simp only [InInt256, intBound] at hlow hhigh ⊢
  omega

/-- What `preciseDivCeilInt` returns is the quotient rounded away from zero. -/
theorem away_returned (ha : InInt256 a) (hb : InInt256 b) (hne : b ≠ 0) :
    (if a.tmod b ≠ 0 then
        if 0 < xorInt a b then pure (wrapInt (a.tdiv b + 1)) else pure (wrapInt (a.tdiv b - 1))
      else pure (a.tdiv b) : Result Int) = pure (awayFromZero (a / b)) := by
  rw [away_eq_tdiv ha hb hne]
  split_ifs with hmod hpos
  · rw [wrapInt_of_in (away_in ha hne hmod).1]
  · rw [wrapInt_of_in (away_in ha hne hmod).2]
  · rfl

/-! ### The functions -/

theorem preciseDivCeilInt_eq_ok (hb : InInt256 b) :
    preciseDivCeilInt a b = .ok c ↔
      b ≠ 0 ∧ InInt256 (a * preciseUnitInt) ∧
        awayFromZero (((a * preciseUnitInt : Int) : ℚ) / b) = c := by
  simp only [preciseDivCeilInt, bind_eq_ok, require_eq_ok, exists_const, SignedSafeMath.mul_eq_ok,
    SignedSafeMath.div_eq_ok]
  refine and_congr_right fun hne => ?_
  constructor
  · rintro ⟨_, ⟨hin, rfl⟩, _, ⟨_, _, rfl⟩, h⟩
    rw [away_returned hin hb hne] at h
    exact ⟨hin, pure_eq_ok.mp h⟩
  · rintro ⟨hin, rfl⟩
    refine ⟨_, ⟨hin, rfl⟩, _, ⟨hne, fun h => scaled_ne a h.2, rfl⟩, ?_⟩
    rw [away_returned hin hb hne]
    rfl

/-- The one quotient that leaves the range is the one `divDown` refuses. -/
theorem floor_in_iff (ha : InInt256 a) (hne : b ≠ 0) :
    (a ≠ -intBound ∨ b ≠ -1) ↔ InInt256 ⌊(a : ℚ) / b⌋ := by
  rw [← fdiv_eq_floor]
  refine ⟨floor_in ha hne, fun hin => ?_⟩
  by_contra hrefused
  rw [not_or, not_not, not_not] at hrefused
  obtain ⟨rfl, rfl⟩ := hrefused
  rw [Int.neg_fdiv_neg, Int.fdiv_one] at hin
  exact lt_irrefl _ hin.2

theorem divDown_eq_floor (ha : InInt256 a) :
    divDown a b = .ok c ↔ b ≠ 0 ∧ InInt256 ⌊(a : ℚ) / b⌋ ∧ ⌊(a : ℚ) / b⌋ = c := by
  rw [divDown_eq_ok ha]
  refine and_congr_right fun hne => and_congr (floor_in_iff ha hne) ?_
  rw [fdiv_eq_floor]

theorem conservativePreciseMul_eq_floor :
    conservativePreciseMul a b = .ok c ↔
      InInt256 (a * b) ∧ ⌊((a * b : Int) : ℚ) / preciseUnitInt⌋ = c := by
  rw [conservativePreciseMul_eq_ok, ← fdiv_eq_floor,
    Int.fdiv_eq_ediv_of_nonneg _ preciseUnitInt_pos.le]

theorem conservativePreciseDiv_eq_floor :
    conservativePreciseDiv a b = .ok c ↔
      b ≠ 0 ∧ InInt256 (a * preciseUnitInt) ∧ ⌊((a * preciseUnitInt : Int) : ℚ) / b⌋ = c := by
  simp only [conservativePreciseDiv, bind_eq_ok, SignedSafeMath.mul_eq_ok]
  constructor
  · rintro ⟨_, ⟨hin, rfl⟩, h⟩
    obtain ⟨hne, _, rfl⟩ := (divDown_eq_floor hin).mp h
    exact ⟨hne, hin, rfl⟩
  · rintro ⟨hne, hin, rfl⟩
    have hfloor := (floor_in_iff hin hne).mp (.inl (scaled_ne a))
    exact ⟨_, ⟨hin, rfl⟩, (divDown_eq_floor hin).mpr ⟨hne, hfloor, rfl⟩⟩

/-- **The directed roundings are exact.** Rounded to its side, the quotient is what each function
returns, unless the divisor is zero, the product to divide leaves the range, or the quotient does. -/
theorem roundings_exact {m n k : Nat} (ha : InInt256 a) (hb : InInt256 b) :
    (divDown a b = .ok c ↔ b ≠ 0 ∧ InInt256 ⌊(a : ℚ) / b⌋ ∧ ⌊(a : ℚ) / b⌋ = c) ∧
    (conservativePreciseMul a b = .ok c ↔
      InInt256 (a * b) ∧ ⌊((a * b : Int) : ℚ) / preciseUnitInt⌋ = c) ∧
    (conservativePreciseDiv a b = .ok c ↔
      b ≠ 0 ∧ InInt256 (a * preciseUnitInt) ∧ ⌊((a * preciseUnitInt : Int) : ℚ) / b⌋ = c) ∧
    (preciseDivCeilInt a b = .ok c ↔
      b ≠ 0 ∧ InInt256 (a * preciseUnitInt) ∧
        awayFromZero (((a * preciseUnitInt : Int) : ℚ) / b) = c) ∧
    (preciseMulCeil m n = .ok k ↔
      m * n < uintBound ∧ ⌈((m * n : Nat) : ℚ) / preciseUnit⌉₊ = k) ∧
    (preciseDivCeil m n = .ok k ↔
      n ≠ 0 ∧ m * preciseUnit < uintBound ∧ ⌈((m * preciseUnit : Nat) : ℚ) / n⌉₊ = k) := by
  refine ⟨divDown_eq_floor ha, conservativePreciseMul_eq_floor, conservativePreciseDiv_eq_floor,
    preciseDivCeilInt_eq_ok hb, ?_, ?_⟩
  · rw [preciseMulCeil_eq_ok, ceilDiv_eq_ceil _ preciseUnit_pos]
  · rw [preciseDivCeil_eq_ok, Nat.pos_iff_ne_zero]
    refine and_congr_right fun hne => ?_
    rw [ceilDiv_eq_ceil _ (Nat.pos_of_ne_zero hne)]

/-- A third of minus one is rounded to minus one, and in precise units away from zero. -/
theorem roundings_exact_example :
    divDown 1 (-3) = .ok (-1) ∧ preciseDivCeilInt 1 (-3) = .ok (-333333333333333334) := by
  have ha : InInt256 1 := by decide
  have hb : InInt256 (-3) := by decide
  have hfloor : ⌊((1 : Int) : ℚ) / (-3 : Int)⌋ = -1 := by
    rw [Int.floor_eq_iff]
    norm_num
  have haway : awayFromZero (((1 * preciseUnitInt : Int) : ℚ) / (-3 : Int)) =
      -333333333333333334 := by
    rw [awayFromZero_eq_floor (by decide), Int.floor_eq_iff, preciseUnitInt]
    norm_num
  constructor
  · refine (roundings_exact (m := 0) (n := 0) (k := 0) ha hb).1.mpr ⟨by decide, ?_, hfloor⟩
    rw [hfloor]
    decide
  · exact (roundings_exact (m := 0) (n := 0) (k := 0) ha hb).2.2.2.1.mpr
      ⟨by decide, by decide, haway⟩

end IndexProtocol.PreciseUnitMath
