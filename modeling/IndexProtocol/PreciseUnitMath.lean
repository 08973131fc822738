import IndexProtocol.Evm.Checked
import IndexProtocol.Rounding

/-! Fixed-point numbers with 18 decimals.

Each function of the library rounds its exact quotient to one side. The rules
below say which, and when the function returns. The `int256` overloads carry the
suffix `Int`. -/
namespace IndexProtocol.PreciseUnitMath
open Evm

/-- The number one in precise units. -/
def preciseUnit : Nat := 10 ^ 18

def preciseUnitInt : Int := 10 ^ 18

theorem preciseUnit_pos : 0 < preciseUnit := by decide

theorem preciseUnitInt_pos : 0 < preciseUnitInt := by decide

theorem preciseUnit_cast : (preciseUnit : Int) = preciseUnitInt := rfl

/-! ### Unsigned -/

def preciseMul (a b : Nat) : Result Nat := do
  SafeMath.div (← SafeMath.mul a b) preciseUnit

def preciseMulCeil (a b : Nat) : Result Nat :=
  if a = 0 ∨ b = 0 then pure 0
  else do
    let product ← SafeMath.mul a b
    let quotient ← SafeMath.div (← SafeMath.sub product 1) preciseUnit
    SafeMath.add quotient 1

def preciseDiv (a b : Nat) : Result Nat := do
  SafeMath.div (← SafeMath.mul a preciseUnit) b

def preciseDivCeil (a b : Nat) : Result Nat := do
  require (b ≠ 0) "Cant divide by 0"
  if 0 < a then
    let scaled ← SafeMath.mul a preciseUnit
    let quotient ← SafeMath.div (← SafeMath.sub scaled 1) b
    SafeMath.add quotient 1
  else pure 0

variable {a b c : Nat}

@[simp] theorem preciseMul_eq_ok :
    preciseMul a b = .ok c ↔ a * b < uintBound ∧ a * b / preciseUnit = c := by
  simp [preciseMul, preciseUnit_pos]

theorem succ_pred_div_lt {n d : Nat} (hn : 0 < n) (h : n < uintBound) :
    (n - 1) / d + 1 < uintBound := by
  have := Nat.div_le_self (n - 1) d
  omega

@[simp] theorem preciseMulCeil_eq_ok :
    preciseMulCeil a b = .ok c ↔ a * b < uintBound ∧ a * b ⌈/⌉ preciseUnit = c := by
  unfold preciseMulCeil
  split
  · rename_i h
    have hzero : a * b = 0 := by rcases h with rfl | rfl <;> simp
    have hbound : 0 < uintBound := by decide
    simp [hzero, hbound]
  · rename_i h
    have hpos : 0 < a * b := Nat.mul_pos (by omega) (by omega)
    simp only [bind_eq_ok, SafeMath.mul_eq_ok, SafeMath.sub_eq_ok, SafeMath.div_eq_ok,
      SafeMath.add_eq_ok]
    constructor
    · rintro ⟨_, ⟨hmul, rfl⟩, _, ⟨_, rfl⟩, _, ⟨_, rfl⟩, _, rfl⟩
      exact ⟨hmul, (Rounding.pred_div_succ hpos preciseUnit_pos).symm⟩
    · rintro ⟨hmul, rfl⟩
      exact ⟨_, ⟨hmul, rfl⟩, _, ⟨hpos, rfl⟩, _, ⟨preciseUnit_pos, rfl⟩,
        succ_pred_div_lt hpos hmul, Rounding.pred_div_succ hpos preciseUnit_pos⟩

@[simp] theorem preciseDiv_eq_ok :
    preciseDiv a b = .ok c ↔ a * preciseUnit < uintBound ∧ 0 < b ∧ a * preciseUnit / b = c := by
  simp [preciseDiv]

@[simp] theorem preciseDivCeil_eq_ok :
    preciseDivCeil a b = .ok c ↔
      0 < b ∧ a * preciseUnit < uintBound ∧ a * preciseUnit ⌈/⌉ b = c := by
  unfold preciseDivCeil
  simp only [bind_eq_ok, require_eq_ok, exists_const, ← Nat.pos_iff_ne_zero]
  refine and_congr_right fun hb => ?_
  split
  · rename_i ha
    have hpos : 0 < a * preciseUnit := Nat.mul_pos ha preciseUnit_pos
    simp only [bind_eq_ok, SafeMath.mul_eq_ok, SafeMath.sub_eq_ok, SafeMath.div_eq_ok,
      SafeMath.add_eq_ok]
    constructor
    · rintro ⟨_, ⟨hmul, rfl⟩, _, ⟨_, rfl⟩, _, ⟨_, rfl⟩, _, rfl⟩
      exact ⟨hmul, (Rounding.pred_div_succ hpos hb).symm⟩
    · rintro ⟨hmul, rfl⟩
      exact ⟨_, ⟨hmul, rfl⟩, _, ⟨hpos, rfl⟩, _, ⟨hb, rfl⟩,
        succ_pred_div_lt hpos hmul, Rounding.pred_div_succ hpos hb⟩
  · rename_i ha
    have hbound : 0 < uintBound := by decide
    obtain rfl : a = 0 := by omega
    simp [hbound]

/-! ### Signed -/

/-- The sign bit of `a ^ b`. -/
def signsDiffer (a b : Int) : Bool := decide (a < 0) != decide (b < 0)

/-- Rounds toward zero. -/
def preciseMulInt (a b : Int) : Result Int := do
  SignedSafeMath.div (← SignedSafeMath.mul a b) preciseUnitInt

/-- Rounds toward zero. -/
def preciseDivInt (a b : Int) : Result Int := do
  SignedSafeMath.div (← SignedSafeMath.mul a preciseUnitInt) b

/-- Rounds away from zero. -/
def preciseDivCeilInt (a b : Int) : Result Int := do
  require (b ≠ 0) "Cant divide by 0"
  let a ← SignedSafeMath.mul a preciseUnitInt
  let c ← SignedSafeMath.div a b
  if a.tmod b ≠ 0 then
    if 0 < xorInt a b then pure (wrapInt (c + 1)) else pure (wrapInt (c - 1))
  else pure c

/-- Rounds toward the lesser number. -/
def divDown (a b : Int) : Result Int := do
  require (b ≠ 0) "Cant divide by 0"
  require (a ≠ -intBound ∨ b ≠ -1) "Invalid input"
  let result ← SignedSafeMath.div a b
  if signsDiffer a b ∧ a.tmod b ≠ 0 then pure (wrapInt (result - 1)) else pure result

def conservativePreciseMul (a b : Int) : Result Int := do
  divDown (← SignedSafeMath.mul a b) preciseUnitInt

def conservativePreciseDiv (a b : Int) : Result Int := do
  divDown (← SignedSafeMath.mul a preciseUnitInt) b

@[simp] theorem preciseMulInt_eq_ok {a b c : Int} :
    preciseMulInt a b = .ok c ↔ InInt256 (a * b) ∧ (a * b).tdiv preciseUnitInt = c := by
  have h0 : preciseUnitInt ≠ 0 := preciseUnitInt_pos.ne'
  have h1 : preciseUnitInt ≠ -1 := by decide
  simp [preciseMulInt, h0, h1]

/-- No multiple of the precise unit is the least integer. -/
theorem scaled_ne (a : Int) : a * preciseUnitInt ≠ -intBound := by
  intro h
  have hdvd : preciseUnitInt ∣ -intBound := ⟨a, by rw [← h, Int.mul_comm]⟩
  exact absurd hdvd (by decide)

@[simp] theorem preciseDivInt_eq_ok {a b c : Int} :
    preciseDivInt a b = .ok c ↔
      InInt256 (a * preciseUnitInt) ∧ b ≠ 0 ∧ (a * preciseUnitInt).tdiv b = c := by
  simp only [preciseDivInt, bind_eq_ok, SignedSafeMath.mul_eq_ok, SignedSafeMath.div_eq_ok]
  constructor
  · rintro ⟨_, ⟨hin, rfl⟩, hne, _, h⟩
    exact ⟨hin, hne, h⟩
  · rintro ⟨hin, hne, h⟩
    exact ⟨_, ⟨hin, rfl⟩, hne, fun hmin => scaled_ne a hmin.2, h⟩

/-- What `divDown` computes is the floor. -/
theorem floor_eq_tdiv (a b : Int) (hb : b ≠ 0) :
    a.fdiv b = if signsDiffer a b ∧ a.tmod b ≠ 0 then a.tdiv b - 1 else a.tdiv b := by
  rw [Int.fdiv_eq_tdiv]
  by_cases hdvd : b ∣ a
  · have hmod : a.tmod b = 0 := Int.dvd_iff_tmod_eq_zero.mp hdvd
    simp [hdvd, hmod]
  · have hmod : a.tmod b ≠ 0 := fun h => hdvd (Int.dvd_iff_tmod_eq_zero.mpr h)
    rcases lt_or_gt_of_ne hb with hneg | hpos
    · by_cases ha : 0 ≤ a
      · simp [hdvd, hmod, ha, signsDiffer, hneg, not_le.mpr hneg, not_lt.mpr ha]
      · simp [hdvd, hmod, ha, signsDiffer, hneg, not_le.mpr hneg, not_le.mp ha,
          Int.sign_eq_neg_one_of_neg hneg]
    · by_cases ha : 0 ≤ a
      · simp [hdvd, hmod, ha, signsDiffer, hpos.le, not_lt.mpr hpos.le, not_lt.mpr ha]
      · simp [hdvd, hmod, ha, signsDiffer, hpos.le, not_lt.mpr hpos.le, not_le.mp ha,
          Int.sign_eq_one_of_pos hpos]

/-- A quotient rounded down stays in range, but for the one quotient that leaves it. -/
theorem floor_in {a b : Int} (ha : InInt256 a) (hb : b ≠ 0) (h : a ≠ -intBound ∨ b ≠ -1) :
    InInt256 (a.fdiv b) := by
  obtain ⟨hlow, hhigh⟩ := ha
  have hbound := intBound_pos
  rcases lt_or_gt_of_ne hb with hneg | hpos
  · -- Both signs flipped, the divisor is positive.
    rw [← Int.neg_fdiv_neg, Int.fdiv_eq_ediv_of_nonneg _ (by omega)]
    have hb' : 0 < -b := by omega
    refine ⟨(Int.le_ediv_iff_mul_le hb').mpr ?_, (Int.ediv_lt_iff_lt_mul hb').mpr ?_⟩
    · nlinarith
    · rcases h with ha | hb1
      · nlinarith [lt_of_le_of_ne hlow (Ne.symm ha)]
      · nlinarith [show 2 ≤ -b by omega]
  · rw [Int.fdiv_eq_ediv_of_nonneg _ hpos.le]
    refine ⟨(Int.le_ediv_iff_mul_le hpos).mpr ?_, (Int.ediv_lt_iff_lt_mul hpos).mpr ?_⟩ <;> nlinarith

theorem divDown_eq_ok {a b c : Int} (ha : InInt256 a) :
    divDown a b = .ok c ↔ b ≠ 0 ∧ (a ≠ -intBound ∨ b ≠ -1) ∧ a.fdiv b = c := by
  unfold divDown
  simp only [bind_eq_ok, require_eq_ok, exists_const, SignedSafeMath.div_eq_ok]
  refine and_congr_right fun hb => and_congr_right fun hin => ?_
  have hin' : ¬(b = -1 ∧ a = -intBound) := fun h => hin.elim (absurd h.2) (absurd h.1)
  have hfloor := floor_eq_tdiv a b hb
  have hwrap := wrapInt_of_in (floor_in ha hb hin)
  constructor
  · rintro ⟨_, ⟨_, _, rfl⟩, h⟩
    split at h <;> rename_i hsign
    · rw [if_pos hsign] at hfloor
      rw [hfloor] at hwrap
      rw [hfloor, ← hwrap]
      simpa using h
    · rw [hfloor, if_neg hsign]
      simpa using h
  · rintro rfl
    refine ⟨_, ⟨hb, hin', rfl⟩, ?_⟩
    split <;> rename_i hsign
    · rw [if_pos hsign] at hfloor
      rw [hfloor] at hwrap ⊢
      simpa using hwrap
    · rw [hfloor, if_neg hsign]
      rfl

@[simp] theorem conservativePreciseMul_eq_ok {a b c : Int} :
    conservativePreciseMul a b = .ok c ↔ InInt256 (a * b) ∧ a * b / preciseUnitInt = c := by
  have hne : preciseUnitInt ≠ -1 := by decide
  simp only [conservativePreciseMul, bind_eq_ok, SignedSafeMath.mul_eq_ok]
  constructor
  · rintro ⟨_, ⟨hin, rfl⟩, h⟩
    obtain ⟨_, _, rfl⟩ := (divDown_eq_ok hin).mp h
    exact ⟨hin, (Int.fdiv_eq_ediv_of_nonneg _ preciseUnitInt_pos.le).symm⟩
  · rintro ⟨hin, rfl⟩
    refine ⟨_, ⟨hin, rfl⟩, (divDown_eq_ok hin).mpr ⟨preciseUnitInt_pos.ne', .inr hne, ?_⟩⟩
    exact Int.fdiv_eq_ediv_of_nonneg _ preciseUnitInt_pos.le

/-- Division by a positive number, as the position multiplier is. -/
theorem conservativePreciseDiv_eq_ok {a b c : Int} (hb : 0 < b) :
    conservativePreciseDiv a b = .ok c ↔ InInt256 (a * preciseUnitInt) ∧ a * preciseUnitInt / b = c := by
  simp only [conservativePreciseDiv, bind_eq_ok, SignedSafeMath.mul_eq_ok]
  constructor
  · rintro ⟨_, ⟨hin, rfl⟩, h⟩
    obtain ⟨_, _, rfl⟩ := (divDown_eq_ok hin).mp h
    exact ⟨hin, (Int.fdiv_eq_ediv_of_nonneg _ hb.le).symm⟩
  · rintro ⟨hin, rfl⟩
    refine ⟨_, ⟨hin, rfl⟩, (divDown_eq_ok hin).mpr ⟨hb.ne', .inr (by omega), ?_⟩⟩
    exact Int.fdiv_eq_ediv_of_nonneg _ hb.le

end IndexProtocol.PreciseUnitMath
