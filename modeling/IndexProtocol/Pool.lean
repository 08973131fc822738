import IndexProtocol.Rounding

/-! Pools of shares over an asset.

Each share is owed `unit / d` of an asset, of which the pool holds `balance`; it
is covered when the balance pays every share. Depositing rounded up for new
shares and paying out rounded down for returned ones keep a pool covered.
Shares given away keep it covered when the unit shrinks in proportion, but for
that the balance has to cover the unit before it was rounded. -/
namespace IndexProtocol

/-- The balance pays `unit / d` for every share. -/
def Covered (d unit balance supply : ℕ) : Prop := unit * supply ≤ balance * d

namespace Covered
variable {d unit balance balance' supply supply' quantity : ℕ}

/-- New shares are paid for rounded up. -/
theorem join (h : Covered d unit balance supply) (hd : 0 < d)
    (hb : balance + unit * quantity ⌈/⌉ d ≤ balance') (hs : supply' = supply + quantity) :
    Covered d unit balance' supply' := by
  have hceil := Rounding.le_ceil_mul (unit * quantity) hd
  calc unit * supply' = unit * supply + unit * quantity := by rw [hs, Nat.mul_add]
    _ ≤ balance * d + unit * quantity ⌈/⌉ d * d := Nat.add_le_add h hceil
    _ = (balance + unit * quantity ⌈/⌉ d) * d := (Nat.add_mul _ _ _).symm
    _ ≤ balance' * d := Nat.mul_le_mul_right d hb

/-- Returned shares are paid out rounded down. -/
theorem leave (h : Covered d unit balance supply)
    (hb : balance' + unit * quantity / d = balance) (hs : supply' + quantity = supply) :
    Covered d unit balance' supply' := by
  have hfloor := Nat.div_mul_le_self (unit * quantity) d
  have hsum : unit * supply' + unit * quantity ≤ balance' * d + unit * quantity / d * d := by
    calc unit * supply' + unit * quantity = unit * supply := by rw [← Nat.mul_add, hs]
      _ ≤ balance * d := h
      _ = balance' * d + unit * quantity / d * d := by rw [← hb, Nat.add_mul]
  exact Nat.le_of_add_le_add_right (hsum.trans (Nat.add_le_add_left hfloor _))

/-- A covered pool can pay out any of its shares. -/
theorem payable (h : Covered d unit balance supply) (hq : quantity ≤ supply) :
    unit * quantity / d ≤ balance := by
  have hle : unit * quantity ≤ d * balance := by
    rw [Nat.mul_comm d]
    exact (Nat.mul_le_mul_left unit hq).trans h
  exact Nat.div_le_of_le_mul hle

/-- A larger balance, fewer shares and a smaller unit. -/
theorem mono {unit' : ℕ} (h : Covered d unit balance supply) (hb : balance ≤ balance')
    (hs : supply' ≤ supply) (hu : unit' ≤ unit) : Covered d unit' balance' supply' :=
  (Nat.mul_le_mul hu hs).trans (h.trans (Nat.mul_le_mul_right d hb))

/-- Shares given away. The unit is the value `virtual * multiplier / d` rounded down; the balance
covers the unrounded value, and the multiplier shrinks at least as the supply grows. -/
theorem dilute {value multiplier multiplier' : ℕ} (hd : 0 < d)
    (h : value * multiplier * supply ≤ balance * d * d)
    (hshrink : multiplier' * supply' ≤ multiplier * supply) :
    Covered d (value * multiplier' / d) balance supply' := by
  have hfloor := Nat.div_mul_le_self (value * multiplier') d
  refine Nat.le_of_mul_le_mul_right ?_ hd
  calc value * multiplier' / d * supply' * d
      = value * multiplier' / d * d * supply' := Nat.mul_right_comm _ _ _
    _ ≤ value * multiplier' * supply' := Nat.mul_le_mul_right _ hfloor
    _ = value * (multiplier' * supply') := Nat.mul_assoc _ _ _
    _ ≤ value * (multiplier * supply) := Nat.mul_le_mul_left _ hshrink
    _ = value * multiplier * supply := (Nat.mul_assoc _ _ _).symm
    _ ≤ balance * d * d := h

end Covered

end IndexProtocol
