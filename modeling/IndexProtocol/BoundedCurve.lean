import Mathlib.Order.WithBot
import Mathlib.Data.Int.Order.Basic
import Mathlib.Order.MinMax
import Mathlib.Order.Monotone.Basic

/-! Values that move away from a start, between two bounds.

The distance moved may be infinite, which stands for one that is too large to be computed:
the value is then at its bound. Whatever the distances are, the value is within the bounds,
and it moves in one direction while the distance grows. -/
namespace IndexProtocol

/-- A start between two bounds. -/
structure BoundedCurve where
  start : ℕ
  lower : ℕ
  upper : ℕ
  lower_le : lower ≤ start
  le_upper : start ≤ upper

namespace BoundedCurve
variable (c : BoundedCurve)

/-- The value at a distance, below the start or above it. -/
def value (isDecreasing : Bool) : WithTop ℕ → ℕ
  | none => if isDecreasing then c.lower else c.upper
  | some d => if isDecreasing then max (c.start - d) c.lower else min (c.start + d) c.upper

theorem lower_le_value (isDecreasing : Bool) (d : WithTop ℕ) : c.lower ≤ c.value isDecreasing d := by
  have hbounds := c.lower_le.trans c.le_upper
  cases d with
  | top => cases isDecreasing <;> simp [value, hbounds]
  | coe d =>
    cases isDecreasing with
    | true => exact le_max_right _ _
    | false => exact le_min (c.lower_le.trans (Nat.le_add_right _ _)) hbounds

theorem value_le_upper (isDecreasing : Bool) (d : WithTop ℕ) : c.value isDecreasing d ≤ c.upper := by
  have hbounds := c.lower_le.trans c.le_upper
  cases d with
  | top => cases isDecreasing <;> simp [value, hbounds]
  | coe d =>
    cases isDecreasing with
    | true => exact max_le ((Nat.sub_le _ _).trans c.le_upper) hbounds
    | false => exact min_le_right _ _

theorem value_antitone : Antitone (c.value true) := by
  intro d e hle
  cases e with
  | top => exact c.lower_le_value true d
  | coe e =>
    cases d with
    | top => exact absurd hle (WithTop.not_top_le_coe e)
    | coe d => exact max_le_max_right _ (Nat.sub_le_sub_left (WithTop.coe_le_coe.mp hle) _)

theorem value_monotone : Monotone (c.value false) := by
  intro d e hle
  cases e with
  | top => exact c.value_le_upper false d
  | coe e =>
    cases d with
    | top => exact absurd hle (WithTop.not_top_le_coe e)
    | coe d => exact min_le_min_right _ (Nat.add_le_add_left (WithTop.coe_le_coe.mp hle) _)

/-- Where a distance is beyond the bound it makes no difference how far it is. -/
theorem value_of_beyond {isDecreasing : Bool} {d : ℕ}
    (h : if isDecreasing = true then c.start ≤ d + c.lower else c.upper ≤ c.start + d) :
    c.value isDecreasing (WithTop.some d) = c.value isDecreasing ⊤ := by
  cases isDecreasing with
  | true =>
    rw [if_pos rfl] at h
    exact max_eq_right (Nat.sub_le_iff_le_add'.mpr h)
  | false =>
    rw [if_neg Bool.false_ne_true] at h
    exact min_eq_right h

/-- The value is the start moved by the distance, as an integer, and put between the bounds. -/
theorem value_eq_clamp (isDecreasing : Bool) (d : ℕ) :
    (c.value isDecreasing (WithTop.some d) : ℤ) =
      max (c.lower : ℤ) (min (c.upper : ℤ) (if isDecreasing = true then (c.start : ℤ) - d else c.start + d)) := by
  have hlower := c.lower_le
  have hupper := c.le_upper
  cases isDecreasing with
  | true =>
    rw [if_pos rfl]
    show ((max (c.start - d) c.lower : ℕ) : ℤ) = _
    omega
  | false =>
    rw [if_neg Bool.false_ne_true]
    show ((min (c.start + d) c.upper : ℕ) : ℤ) = _
    omega

end BoundedCurve

end IndexProtocol
