import IndexProtocol.Accumulator

/-! Votes that follow balances.

Every account names a representative, and a representative weighs what the accounts
that name it hold. An amount that goes from one account to another goes from the
representative of the one to that of the other, and so does the balance of an account
that names another representative. -/
namespace IndexProtocol.Delegation

section Weights
variable {ι ρ : Type} [Fintype ι] [DecidableEq ρ]

/-- What the accounts of a representative hold. -/
def weight (representative : ι → ρ) (balance : ι → ℕ) (r : ρ) : ℕ :=
  ∑ a, if representative a = r then balance a else 0

variable {representative : ι → ρ} {balance balance' : ι → ℕ}

theorem balance_le_weight (a : ι) :
    balance a ≤ weight representative balance (representative a) := by
  have h := Finset.single_le_sum (s := Finset.univ) (a := a)
    (f := fun b => if representative b = representative a then balance b else 0)
    (fun _ _ => Nat.zero_le _) (Finset.mem_univ a)
  rwa [if_pos rfl] at h

theorem weight_le_total (r : ρ) : weight representative balance r ≤ ∑ a, balance a := by
  refine Finset.sum_le_sum fun a _ => ?_
  split
  · exact le_rfl
  · exact Nat.zero_le _

variable [DecidableEq ι] {src dst : ι} {n : ℕ}

/-- What leaves one account arrives at another. -/
def Moved (balance balance' : ι → ℕ) (src dst : ι) (n : ℕ) : Prop :=
  ∀ a, balance' a + (if a = src then n else 0) = balance a + if a = dst then n else 0

theorem Moved.total (h : Moved balance balance' src dst n) : ∑ a, balance' a = ∑ a, balance a := by
  have hsum : ∑ a, (balance' a + if a = src then n else 0) =
      ∑ a, (balance a + if a = dst then n else 0) := Finset.sum_congr rfl fun a _ => h a
  simpa [Finset.sum_add_distrib] using hsum

theorem Moved.weight (h : Moved balance balance' src dst n) (r : ρ) :
    weight representative balance' r + (if representative src = r then n else 0) =
      weight representative balance r + if representative dst = r then n else 0 := by
  have hone (b : ι) : (∑ a, if a = b ∧ representative a = r then n else 0) =
      if representative b = r then n else 0 := by
    have hb : ∀ a, (if a = b ∧ representative a = r then n else 0) =
        if a = b then (if representative b = r then n else 0) else 0 := by
      intro a
      by_cases hab : a = b
      · simp [hab]
      · simp [hab]
    rw [Finset.sum_congr rfl fun a _ => hb a, Finset.sum_ite_eq' Finset.univ b]
    simp
  rw [← hone src, ← hone dst, Delegation.weight, Delegation.weight, ← Finset.sum_add_distrib,
    ← Finset.sum_add_distrib]
  refine Finset.sum_congr rfl fun a _ => ?_
  by_cases hr : representative a = r
  · simpa [hr] using h a
  · simp [hr]

/-- An account names another representative. -/
theorem weight_update (a : ι) (r' r : ρ) :
    weight (Function.update representative a r') balance r +
        (if representative a = r then balance a else 0) =
      weight representative balance r + if r' = r then balance a else 0 := by
  have h := Accumulator.sum_change (a := a)
    (f := fun b => if representative b = r then balance b else 0)
    (g := fun b => if Function.update representative a r' b = r then balance b else 0)
    fun b hb => by rw [Function.update_of_ne hb]
  rwa [Function.update_self] at h

end Weights

end IndexProtocol.Delegation
