import IndexProtocol.Rounding
import Mathlib.Data.Rat.Floor
import Mathlib.Algebra.Order.Floor.Semifield

/-! Integer division and the rounding of rational numbers.

What machine division computes is a rational quotient rounded to an integer: the floor for division
rounded down, the ceiling for division rounded up, and away from zero where a step is taken from the
truncated quotient. -/
namespace IndexProtocol.Rounding

/-- The nearest integer that is not closer to zero. -/
def awayFromZero (q : ℚ) : ℤ := if 0 ≤ q then ⌈q⌉ else ⌊q⌋

theorem fdiv_eq_floor (a b : ℤ) : a.fdiv b = ⌊(a : ℚ) / b⌋ := by
  obtain ⟨n, rfl | rfl⟩ := Int.eq_nat_or_neg b
  · rw [Int.fdiv_eq_ediv_of_nonneg _ n.cast_nonneg, Int.cast_natCast, Rat.floor_intCast_div_natCast]
  · -- Both signs flipped, the divisor is a natural number.
    have hflip : (a : ℚ) / ((-(n : ℤ) : ℤ) : ℚ) = ((-a : ℤ) : ℚ) / (n : ℚ) := by
      rw [Int.cast_neg, Int.cast_neg, Int.cast_natCast, div_neg, neg_div]
    rw [hflip, Rat.floor_intCast_div_natCast, ← Int.neg_fdiv_neg, Int.neg_neg,
      Int.fdiv_eq_ediv_of_nonneg _ n.cast_nonneg]

theorem neg_fdiv_eq_ceil (a b : ℤ) : -(-a).fdiv b = ⌈(a : ℚ) / b⌉ := by
  rw [fdiv_eq_floor, Int.cast_neg, neg_div, Int.floor_neg, Int.neg_neg]

theorem ceilDiv_eq_ceil (n : ℕ) {d : ℕ} (hd : 0 < d) : n ⌈/⌉ d = ⌈(n : ℚ) / d⌉₊ := by
  refine eq_of_forall_ge_iff fun k => ?_
  have hpos : (0 : ℚ) < d := Nat.cast_pos.mpr hd
  rw [ceilDiv_le_iff_le_mul hd, Nat.ceil_le, div_le_iff₀ hpos, ← Nat.cast_mul, Nat.cast_le,
    Nat.mul_comm]

@[simp] theorem awayFromZero_intCast (z : ℤ) : awayFromZero z = z := by
  rw [awayFromZero, Int.ceil_intCast, Int.floor_intCast, ite_self]

theorem awayFromZero_eq_ceil {a b : ℤ} (h : a < 0 ↔ b < 0) :
    awayFromZero (a / b) = ⌈(a : ℚ) / b⌉ := by
  have hquotient : (0 : ℚ) ≤ a / b := by
    cases lt_or_ge b 0 with
    | inl hb =>
      have ha : a ≤ 0 := (h.mpr hb).le
      exact div_nonneg_of_nonpos (Int.cast_nonpos.mpr ha) (Int.cast_nonpos.mpr hb.le)
    | inr hb =>
      have ha : 0 ≤ a := not_lt.mp fun ha => (h.mp ha).not_ge hb
      exact div_nonneg (Int.cast_nonneg ha) (Int.cast_nonneg hb)
  rw [awayFromZero, if_pos hquotient]

theorem awayFromZero_eq_floor {a b : ℤ} (h : ¬(a < 0 ↔ b < 0)) :
    awayFromZero (a / b) = ⌊(a : ℚ) / b⌋ := by
  have hquotient : (a : ℚ) / b ≤ 0 := by
    cases lt_or_ge b 0 with
    | inl hb =>
      have ha : 0 ≤ a := not_lt.mp fun ha => h (iff_of_true ha hb)
      exact div_nonpos_of_nonneg_of_nonpos (Int.cast_nonneg ha) (Int.cast_nonpos.mpr hb.le)
    | inr hb =>
      have ha : a < 0 := not_le.mp fun ha => h (iff_of_false ha.not_gt hb.not_gt)
      exact div_nonpos_of_nonpos_of_nonneg (Int.cast_nonpos.mpr ha.le) (Int.cast_nonneg hb)
  rw [awayFromZero]
  split_ifs with hnonneg
  · rw [le_antisymm hquotient hnonneg, Int.ceil_zero, Int.floor_zero]
  · rfl

end IndexProtocol.Rounding
