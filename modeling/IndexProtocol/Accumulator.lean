import IndexProtocol.Rounding
import Mathlib.Algebra.BigOperators.Group.Finset.Basic
import Mathlib.Algebra.BigOperators.Ring.Finset
import Mathlib.Algebra.Order.BigOperators.Group.Finset
import Mathlib.Data.Fintype.Basic

/-! Rewards shared by an accumulator.

What one share has earned since the beginning is kept as one number, the index, in
units of `1 / d`. An account keeps the index at which it was last settled and what
it was owed then; its claim is that and what its shares have earned since, rounded
down. What all accounts could claim is bounded by a liability in which nothing is
rounded. It grows by the shares times the step of the index, settling an account
does not increase it, and shares that come or go in a settled account do not
change it. -/
namespace IndexProtocol

structure Accumulator (ι : Type) where
  shares : ι → ℕ
  /-- The index at which the account was settled. -/
  settled : ι → ℕ
  owed : ι → ℕ

namespace Accumulator
variable {ι : Type}

/-- What an account is owed at an index. -/
def claim (l : Accumulator ι) (d index : ℕ) (a : ι) : ℕ :=
  l.shares a * (index - l.settled a) / d + l.owed a

/-- The same in units of `1 / d`, not rounded. -/
def exact (l : Accumulator ι) (d index : ℕ) (a : ι) : ℕ :=
  l.shares a * (index - l.settled a) + l.owed a * d

theorem claim_mul_le (l : Accumulator ι) (d index : ℕ) (a : ι) :
    l.claim d index a * d ≤ l.exact d index a := by
  rw [claim, exact, Nat.add_mul]
  exact Nat.add_le_add_right (Nat.div_mul_le_self _ d) _

section Totals
variable [Fintype ι] {l : Accumulator ι} {d index step : ℕ}

/-- What all accounts could claim, in units of `1 / d`, not rounded. -/
def liability (l : Accumulator ι) (d index : ℕ) : ℕ := ∑ a, l.exact d index a

def totalShares (l : Accumulator ι) : ℕ := ∑ a, l.shares a

theorem sum_claim_mul_le (l : Accumulator ι) (d index : ℕ) :
    (∑ a, l.claim d index a) * d ≤ l.liability d index := by
  rw [Finset.sum_mul]
  exact Finset.sum_le_sum fun a _ => l.claim_mul_le d index a

/-- The index goes up for every share. -/
theorem liability_advance (h : ∀ a, l.settled a ≤ index) :
    l.liability d (index + step) = l.liability d index + l.totalShares * step := by
  rw [liability, liability, totalShares, Finset.sum_mul, ← Finset.sum_add_distrib]
  refine Finset.sum_congr rfl fun a _ => ?_
  rw [exact, exact, Nat.sub_add_comm (h a), Nat.mul_add]
  omega

/-- A step of the index that is a reward shared out, rounded down. -/
theorem liability_share (d : ℕ) (h : ∀ a, l.settled a ≤ index) (reward : ℕ) :
    l.liability d (index + reward / l.totalShares) ≤ l.liability d index + reward := by
  rw [liability_advance h, Nat.mul_comm]
  exact Nat.add_le_add_left (Nat.div_mul_le_self _ _) _

end Totals

section Accounts
variable [DecidableEq ι]

/-- The account's claim is recorded, and starts anew at the index. -/
def settle (l : Accumulator ι) (d index : ℕ) (a : ι) : Accumulator ι where
  shares := l.shares
  settled := Function.update l.settled a index
  owed := Function.update l.owed a (l.claim d index a)

def setShares (l : Accumulator ι) (a : ι) (n : ℕ) : Accumulator ι :=
  { l with shares := Function.update l.shares a n }

/-- What was recorded is paid. -/
def pay (l : Accumulator ι) (a : ι) : Accumulator ι :=
  { l with owed := Function.update l.owed a 0 }

variable {l : Accumulator ι} {d index : ℕ} {a : ι}

/-- Settled accounts stay settled below the index. -/
theorem settled_settle_le (h : ∀ b, l.settled b ≤ index) (b : ι) :
    (l.settle d index a).settled b ≤ index := by
  by_cases hb : b = a
  · simp [settle, hb]
  · simpa [settle, hb] using h b

variable [Fintype ι]

/-- A sum of which one term changes. -/
theorem sum_change {f g : ι → ℕ} (h : ∀ b, b ≠ a → g b = f b) :
    (∑ b, g b) + f a = (∑ b, f b) + g a := by
  have hf := Finset.add_sum_erase Finset.univ f (Finset.mem_univ a)
  have hg := Finset.add_sum_erase Finset.univ g (Finset.mem_univ a)
  have hrest : ∑ b ∈ Finset.univ.erase a, g b = ∑ b ∈ Finset.univ.erase a, f b :=
    Finset.sum_congr rfl fun b hb => h b (Finset.ne_of_mem_erase hb)
  omega

theorem liability_settle (l : Accumulator ι) (d index : ℕ) (a : ι) :
    (l.settle d index a).liability d index ≤ l.liability d index := by
  refine Finset.sum_le_sum fun b _ => ?_
  by_cases hb : b = a
  · rw [hb]
    simpa [exact, settle] using l.claim_mul_le d index a
  · simp [exact, settle, hb]

theorem liability_setShares (d n : ℕ) (h : l.settled a = index) :
    (l.setShares a n).liability d index = l.liability d index := by
  refine Finset.sum_congr rfl fun b _ => ?_
  by_cases hb : b = a
  · simp [exact, setShares, hb, h]
  · simp [exact, setShares, hb]

theorem totalShares_setShares (l : Accumulator ι) (a : ι) (n : ℕ) :
    (l.setShares a n).totalShares + l.shares a = l.totalShares + n := by
  have h := sum_change (f := l.shares) (g := (l.setShares a n).shares) (a := a)
    fun b hb => by simp [setShares, hb]
  simpa [setShares, totalShares] using h

theorem liability_pay (l : Accumulator ι) (d index : ℕ) (a : ι) :
    (l.pay a).liability d index + l.owed a * d = l.liability d index := by
  have h := sum_change (f := l.exact d index) (g := (l.pay a).exact d index) (a := a)
    fun b hb => by simp [exact, pay, hb]
  have hold : l.exact d index a = (l.pay a).exact d index a + l.owed a * d := by
    simp [exact, pay]
  rw [liability, liability]
  omega

end Accounts

end Accumulator

end IndexProtocol
