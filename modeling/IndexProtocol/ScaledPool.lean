import IndexProtocol.Pool

/-! Pools of shares whose unit is kept as a value times a multiplier.

Each share is owed `value * multiplier / d ^ 2` of an asset. Between values and
units there is rounding, and it is always to the side of the pool: a value that is
set from an amount that is held is covered by it, and when shares come or go the
multiplier moves against them. Nothing is rounded in what is covered, so that it
covers the rounded units as well. -/
namespace IndexProtocol

/-- The balance pays `value * multiplier / d ^ 2` for every share. -/
def ScaledCovered (d value multiplier balance supply : ℕ) : Prop :=
  value * multiplier * supply ≤ balance * d * d

namespace ScaledCovered
variable {d value multiplier multiplier' balance balance' supply supply' : ℕ}

/-- Rounded units are covered. -/
theorem covered (h : ScaledCovered d value multiplier balance supply) (hd : 0 < d) :
    Covered d (value * multiplier / d) balance supply :=
  Covered.dilute hd h le_rfl

/-- The amount that rounded units add up to is held. -/
theorem amount_le (h : ScaledCovered d value multiplier balance supply) (hd : 0 < d) :
    value * multiplier / d * supply / d ≤ balance :=
  (h.covered hd).payable le_rfl

/-- The multiplier moved against the supply. -/
theorem rescale (h : ScaledCovered d value multiplier balance supply) (hb : balance ≤ balance')
    (hshrink : multiplier' * supply' ≤ multiplier * supply) :
    ScaledCovered d value multiplier' balance' supply' := by
  calc value * multiplier' * supply' = value * (multiplier' * supply') := Nat.mul_assoc _ _ _
    _ ≤ value * (multiplier * supply) := Nat.mul_le_mul_left _ hshrink
    _ = value * multiplier * supply := (Nat.mul_assoc _ _ _).symm
    _ ≤ balance * d * d := h
    _ ≤ balance' * d * d := Nat.mul_le_mul_right _ (Nat.mul_le_mul_right _ hb)

/-- The value of an amount that is held: its unit is rounded down, and the value of the unit. -/
theorem of_amount {amount : ℕ} (h : amount ≤ balance) :
    ScaledCovered d (amount * d / supply * d / multiplier) multiplier balance supply := by
  have hvalue := Nat.div_mul_le_self (amount * d / supply * d) multiplier
  have hunit := Nat.div_mul_le_self (amount * d) supply
  calc amount * d / supply * d / multiplier * multiplier * supply
      ≤ amount * d / supply * d * supply := Nat.mul_le_mul_right _ hvalue
    _ = amount * d / supply * supply * d := Nat.mul_right_comm _ _ _
    _ ≤ amount * d * d := Nat.mul_le_mul_right _ hunit
    _ ≤ balance * d * d := Nat.mul_le_mul_right _ (Nat.mul_le_mul_right _ h)

/-- The multiplier that shares coming or going leave, rounded down. -/
theorem multiplier_shrinks : multiplier * supply / supply' * supply' ≤ multiplier * supply :=
  Nat.div_mul_le_self _ _

end ScaledCovered

end IndexProtocol
