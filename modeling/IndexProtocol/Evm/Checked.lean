import IndexProtocol.Evm.Result
import Mathlib.Data.Int.Basic
import Mathlib.Tactic.Ring

/-! Checked machine integers.

A `uint256` is a natural number and an `int256` an integer; what bounds them is
the arithmetic, which reverts where the exact result leaves the type. Each
operation comes with one rule saying when it returns and what it returns. -/
namespace IndexProtocol.Evm

/-- One more than the largest `uint256`. -/
def uintBound : Nat := 2 ^ 256

/-- One more than the largest `int256`. -/
def intBound : Int := 2 ^ 255

theorem intBound_pos : 0 < intBound := by decide

/-! ### Unsigned -/

namespace SafeMath

def add (a b : Nat) : Result Nat :=
  if a + b < uintBound then .ok (a + b) else .error "SafeMath: addition overflow"

/-- The subtraction that takes its own revert reason. -/
def subOr (reason : String) (a b : Nat) : Result Nat :=
  if b ≤ a then .ok (a - b) else .error reason

def sub (a b : Nat) : Result Nat := subOr "SafeMath: subtraction overflow" a b

def mul (a b : Nat) : Result Nat :=
  if a * b < uintBound then .ok (a * b) else .error "SafeMath: multiplication overflow"

def div (a b : Nat) : Result Nat :=
  if 0 < b then .ok (a / b) else .error "SafeMath: division by zero"

variable {a b c : Nat}

@[simp] theorem add_eq_ok : add a b = .ok c ↔ a + b < uintBound ∧ a + b = c := by
  unfold add
  split <;> simp_all

@[simp] theorem subOr_eq_ok {reason : String} : subOr reason a b = .ok c ↔ b ≤ a ∧ a - b = c := by
  unfold subOr
  split <;> simp_all

@[simp] theorem sub_eq_ok : sub a b = .ok c ↔ b ≤ a ∧ a - b = c := subOr_eq_ok

@[simp] theorem mul_eq_ok : mul a b = .ok c ↔ a * b < uintBound ∧ a * b = c := by
  unfold mul
  split <;> simp_all

@[simp] theorem div_eq_ok : div a b = .ok c ↔ 0 < b ∧ a / b = c := by
  unfold div
  split <;> simp_all

/-! When the operations revert, and with which reason. -/

theorem add_eq_error {reason : String} :
    add a b = .error reason ↔ uintBound ≤ a + b ∧ "SafeMath: addition overflow" = reason := by
  unfold add
  split <;> simp_all

theorem subOr_eq_error {reason reason' : String} :
    subOr reason a b = .error reason' ↔ a < b ∧ reason = reason' := by
  unfold subOr
  split <;> simp_all

theorem sub_eq_error {reason : String} :
    sub a b = .error reason ↔ a < b ∧ "SafeMath: subtraction overflow" = reason := subOr_eq_error

theorem mul_eq_error {reason : String} :
    mul a b = .error reason ↔ uintBound ≤ a * b ∧ "SafeMath: multiplication overflow" = reason := by
  unfold mul
  split <;> simp_all

theorem div_eq_error {reason : String} :
    div a b = .error reason ↔ b = 0 ∧ "SafeMath: division by zero" = reason := by
  unfold div
  by_cases hb : 0 < b
  · simp [hb, hb.ne']
  · simp [Nat.eq_zero_of_not_pos hb]

end SafeMath

/-! The operators of later compilers revert with a panic. -/

namespace Checked

def add (a b : Nat) : Result Nat :=
  if a + b < uintBound then .ok (a + b) else .error "Panic: overflow"

def sub (a b : Nat) : Result Nat :=
  if b ≤ a then .ok (a - b) else .error "Panic: overflow"

def mul (a b : Nat) : Result Nat :=
  if a * b < uintBound then .ok (a * b) else .error "Panic: overflow"

def div (a b : Nat) : Result Nat :=
  if 0 < b then .ok (a / b) else .error "Panic: division by zero"

variable {a b : Nat}

theorem add_eq (h : a + b < uintBound) : add a b = .ok (a + b) := if_pos h

theorem sub_eq (h : b ≤ a) : sub a b = .ok (a - b) := if_pos h

theorem mul_eq (h : a * b < uintBound) : mul a b = .ok (a * b) := if_pos h

theorem div_eq (h : 0 < b) : div a b = .ok (a / b) := if_pos h

end Checked

/-! ### Signed -/

/-- The values of an `int256`. -/
def InInt256 (a : Int) : Prop := -intBound ≤ a ∧ a < intBound

instance (a : Int) : Decidable (InInt256 a) := inferInstanceAs (Decidable (_ ∧ _))

/-- What unchecked arithmetic leaves in an `int256`. -/
def wrapInt (a : Int) : Int := a.bmod uintBound

/-- Addition of `int256` numbers that panics. -/
def Checked.addInt (a b : Int) : Result Int :=
  if InInt256 (a + b) then .ok (a + b) else .error "Panic: overflow"

theorem Checked.addInt_eq {a b : Int} (h : InInt256 (a + b)) : addInt a b = .ok (a + b) := if_pos h

theorem wrapInt_of_in {a : Int} (h : InInt256 a) : wrapInt a = a := by
  obtain ⟨h1, h2⟩ := h
  unfold wrapInt
  simp only [intBound] at h1 h2
  apply Int.bmod_eq_of_le <;> simp only [uintBound] <;> omega

/-- The exclusive or of the bits of two `int256` numbers. -/
def xorInt (a b : Int) : Int := (BitVec.ofInt 256 a ^^^ BitVec.ofInt 256 b).toInt

theorem toInt_ofInt_of_in {a : Int} (h : InInt256 a) : (BitVec.ofInt 256 a).toInt = a := by
  rw [BitVec.toInt_ofInt]
  exact wrapInt_of_in h

/-- It is negative where one of the numbers is and the other is not. -/
theorem xorInt_neg {a b : Int} (ha : InInt256 a) (hb : InInt256 b) :
    xorInt a b < 0 ↔ (decide (a < 0) != decide (b < 0)) = true := by
  have h := BitVec.msb_xor (x := BitVec.ofInt 256 a) (y := BitVec.ofInt 256 b)
  rw [BitVec.msb_eq_toInt, BitVec.msb_eq_toInt, BitVec.msb_eq_toInt, toInt_ofInt_of_in ha,
    toInt_ofInt_of_in hb] at h
  rw [xorInt]
  exact decide_eq_true_iff.symm.trans (Bool.eq_iff_iff.mp h)

theorem xorInt_eq_zero {a b : Int} (ha : InInt256 a) (hb : InInt256 b) :
    xorInt a b = 0 ↔ a = b := by
  constructor
  · intro h
    have hxor : BitVec.ofInt 256 a ^^^ BitVec.ofInt 256 b = 0#256 :=
      BitVec.eq_of_toInt_eq (h.trans BitVec.toInt_zero.symm)
    have hbits := BitVec.xor_eq_zero_iff.mp hxor
    rw [← toInt_ofInt_of_in ha, ← toInt_ofInt_of_in hb, hbits]
  · rintro rfl
    rw [xorInt, BitVec.xor_self, BitVec.toInt_zero]

namespace SignedSafeMath

def add (a b : Int) : Result Int :=
  if InInt256 (a + b) then .ok (a + b) else .error "SignedSafeMath: addition overflow"

def sub (a b : Int) : Result Int :=
  if InInt256 (a - b) then .ok (a - b) else .error "SignedSafeMath: subtraction overflow"

def mul (a b : Int) : Result Int :=
  if InInt256 (a * b) then .ok (a * b) else .error "SignedSafeMath: multiplication overflow"

/-- Division truncates toward zero. -/
def div (a b : Int) : Result Int := do
  require (b ≠ 0) "SignedSafeMath: division by zero"
  require (¬(b = -1 ∧ a = -intBound)) "SignedSafeMath: division overflow"
  pure (a.tdiv b)

variable {a b c : Int}

@[simp] theorem add_eq_ok : add a b = .ok c ↔ InInt256 (a + b) ∧ a + b = c := by
  unfold add
  split <;> simp_all

@[simp] theorem sub_eq_ok : sub a b = .ok c ↔ InInt256 (a - b) ∧ a - b = c := by
  unfold sub
  split <;> simp_all

@[simp] theorem mul_eq_ok : mul a b = .ok c ↔ InInt256 (a * b) ∧ a * b = c := by
  unfold mul
  split <;> simp_all

@[simp] theorem div_eq_ok :
    div a b = .ok c ↔ b ≠ 0 ∧ ¬(b = -1 ∧ a = -intBound) ∧ a.tdiv b = c := by
  simp [div]

end SignedSafeMath

namespace SafeCast

def toInt256 (a : Nat) : Result Int :=
  if (a : Int) < intBound then .ok a else .error "SafeCast: value doesn't fit in an int256"

def toUint256 (a : Int) : Result Nat :=
  if 0 ≤ a then .ok a.toNat else .error "SafeCast: value must be positive"

@[simp] theorem toInt256_eq_ok {a : Nat} {b : Int} :
    toInt256 a = .ok b ↔ (a : Int) < intBound ∧ (a : Int) = b := by
  unfold toInt256
  split <;> simp_all

@[simp] theorem toUint256_eq_ok {a : Int} {b : Nat} : toUint256 a = .ok b ↔ a = (b : Int) := by
  unfold toUint256
  split
  · simp only [Except.ok.injEq]
    omega
  · simp only [reduceCtorEq, false_iff]
    omega

end SafeCast

end IndexProtocol.Evm
