import IndexProtocol.Evm.Checked
import IndexProtocol.Rounding

/-! Morpho's arithmetic: products over a quotient, and shares of a market.

A debt is kept in shares of the market's total. Shares are worth assets rounded
up, assets are converted to shares rounded down; one virtual asset and a million
virtual shares keep the rate of an empty market defined. -/
namespace IndexProtocol.Morpho
open Evm

namespace MathLib

/-- The fixed-point one. -/
def wad : Nat := 10 ^ 18

/-- `x * y / d` rounded down. -/
def mulDivDown (x y d : Nat) : Result Nat := do
  let product ← SafeMath.mul x y
  SafeMath.div product d

/-- `x * y / d` rounded up. -/
def mulDivUp (x y d : Nat) : Result Nat := do
  let product ← SafeMath.mul x y
  let pred ← SafeMath.sub d 1
  let sum ← SafeMath.add product pred
  SafeMath.div sum d

def wMulDown (x y : Nat) : Result Nat := mulDivDown x y wad

/-- The first three terms of the Taylor expansion of `e ^ (n * x) - 1`. -/
def wTaylorCompounded (x n : Nat) : Result Nat := do
  let firstTerm ← SafeMath.mul x n
  let secondTerm ← mulDivDown firstTerm firstTerm (wad * 2)
  let thirdTerm ← mulDivDown secondTerm firstTerm (wad * 3)
  let sum ← SafeMath.add firstTerm secondTerm
  SafeMath.add sum thirdTerm

variable {x y d c : Nat}

@[simp] theorem mulDivDown_eq_ok :
    mulDivDown x y d = .ok c ↔ x * y < uintBound ∧ 0 < d ∧ x * y / d = c := by
  simp [mulDivDown]

theorem mulDivUp_eq_ok (h : mulDivUp x y d = .ok c) : 0 < d ∧ x * y ⌈/⌉ d = c := by
  simp only [mulDivUp, bind_eq_ok, SafeMath.mul_eq_ok, SafeMath.sub_eq_ok, SafeMath.add_eq_ok,
    SafeMath.div_eq_ok] at h
  obtain ⟨_, ⟨_, rfl⟩, _, ⟨hle, rfl⟩, _, ⟨_, rfl⟩, hd, rfl⟩ := h
  refine ⟨hd, ?_⟩
  rw [Nat.ceilDiv_eq_add_pred_div, Nat.add_sub_assoc hle]

end MathLib

namespace SharesMath

def virtualShares : Nat := 10 ^ 6

def virtualAssets : Nat := 1

def toSharesDown (assets totalAssets totalShares : Nat) : Result Nat := do
  let shares ← SafeMath.add totalShares virtualShares
  let backing ← SafeMath.add totalAssets virtualAssets
  MathLib.mulDivDown assets shares backing

def toAssetsUp (shares totalAssets totalShares : Nat) : Result Nat := do
  let backing ← SafeMath.add totalAssets virtualAssets
  let total ← SafeMath.add totalShares virtualShares
  MathLib.mulDivUp shares backing total

variable {assets shares totalAssets totalShares : Nat}

/-- What assets are worth in shares, rounded down, as a number. -/
def sharesOf (assets totalAssets totalShares : Nat) : Nat :=
  assets * (totalShares + virtualShares) / (totalAssets + virtualAssets)

theorem toSharesDown_eq_ok {result : Nat}
    (h : toSharesDown assets totalAssets totalShares = .ok result) :
    sharesOf assets totalAssets totalShares = result := by
  simp only [toSharesDown, bind_eq_ok, SafeMath.add_eq_ok, MathLib.mulDivDown_eq_ok] at h
  obtain ⟨_, ⟨_, rfl⟩, _, ⟨_, rfl⟩, _, _, rfl⟩ := h
  rfl

theorem toAssetsUp_eq_ok {result : Nat} (h : toAssetsUp shares totalAssets totalShares = .ok result) :
    shares * (totalAssets + virtualAssets) ⌈/⌉ (totalShares + virtualShares) = result := by
  simp only [toAssetsUp, bind_eq_ok, SafeMath.add_eq_ok] at h
  obtain ⟨_, ⟨_, rfl⟩, _, ⟨_, rfl⟩, h⟩ := h
  exact (MathLib.mulDivUp_eq_ok h).2

/-- A debt is worth something as long as there are shares of it. -/
theorem toAssetsUp_eq_zero {debt : Nat}
    (h : toAssetsUp shares totalAssets totalShares = .ok debt) :
    debt = 0 ↔ shares = 0 := by
  have hdebt := toAssetsUp_eq_ok h
  have hpos : 0 < totalShares + virtualShares := by
    unfold virtualShares
    omega
  constructor
  · intro hzero
    by_contra hshares
    have hproduct : 0 < shares * (totalAssets + virtualAssets) :=
      Nat.mul_pos (by omega) (by unfold virtualAssets; omega)
    have := Rounding.ceil_pos hproduct hpos
    omega
  · rintro rfl
    rw [Nat.zero_mul, zero_ceilDiv] at hdebt
    exact hdebt.symm

/-- The most assets whose shares are within `shares`. -/
def maxAssets (shares totalAssets totalShares : Nat) : Nat :=
  ((shares + 1) * (totalAssets + virtualAssets) - 1) / (totalShares + virtualShares)

theorem sharesOf_le_iff :
    sharesOf assets totalAssets totalShares ≤ shares ↔
      assets ≤ maxAssets shares totalAssets totalShares := by
  have hshares : 0 < totalShares + virtualShares := by
    unfold virtualShares
    omega
  have hassets : 0 < totalAssets + virtualAssets := by
    unfold virtualAssets
    omega
  have hproduct : 0 < (shares + 1) * (totalAssets + virtualAssets) := Nat.mul_pos (by omega) hassets
  rw [sharesOf, maxAssets, Nat.le_div_iff_mul_le hshares, ← Nat.lt_succ_iff,
    Nat.div_lt_iff_lt_mul hassets]
  exact Nat.lt_iff_le_pred hproduct

end SharesMath

end IndexProtocol.Morpho
