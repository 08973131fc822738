import Mathlib.Algebra.Order.BigOperators.Group.List
import Mathlib.Algebra.Order.Floor.Div
import Mathlib.Tactic.Linarith
import Mathlib.Tactic.Ring

/-! Division rounded down and up.

Everything a fixed-point contract computes is an exact quotient rounded to one
side. The lemmas bound the rounded quotient by products, so that what follows
them is linear: `n / d * d ≤ n < (n / d + 1) * d` below, `n ≤ c * d < n + d` for
the quotient `c = n ⌈/⌉ d` above. The last section is the round trip of a value
through a scale `m / d` that is at most one. -/
namespace IndexProtocol.Rounding

/-! ### Natural numbers -/

section Nat
variable {n d k : ℕ}

theorem le_ceil_mul (n : ℕ) (hd : 0 < d) : n ≤ n ⌈/⌉ d * d := by
  have h := (ceilDiv_le_iff_le_mul (b := n) (c := n ⌈/⌉ d) hd).mp le_rfl
  rwa [Nat.mul_comm] at h

theorem ceil_mul_lt (n : ℕ) (hd : 0 < d) : n ⌈/⌉ d * d < n + d := by
  rw [Nat.ceilDiv_eq_add_pred_div]
  have := Nat.div_mul_le_self (n + d - 1) d
  omega

theorem lt_floor_succ_mul (n : ℕ) (hd : 0 < d) : n < (n / d + 1) * d := by
  rw [Nat.mul_comm]
  exact Nat.lt_mul_div_succ n hd

theorem ceil_mono {n k : ℕ} (hd : 0 < d) (h : n ≤ k) : n ⌈/⌉ d ≤ k ⌈/⌉ d :=
  (gc_mul_ceilDiv hd).monotone_l h

theorem ceil_pos (hn : 0 < n) (hd : 0 < d) : 0 < n ⌈/⌉ d := by
  by_contra h
  have := le_ceil_mul n hd
  rw [Nat.le_zero.mp (Nat.not_lt.mp h)] at this
  omega

/-- Rounding up computed as one more than the predecessor rounded down. -/
theorem pred_div_succ (hn : 0 < n) (hd : 0 < d) : (n - 1) / d + 1 = n ⌈/⌉ d := by
  rw [Nat.ceilDiv_eq_add_pred_div, show n + d - 1 = (n - 1) + d by omega, Nat.add_div_right _ hd]

theorem floor_le_ceil (n : ℕ) (hd : 0 < d) : n / d ≤ n ⌈/⌉ d := by
  have h1 := Nat.div_mul_le_self n d
  have h2 := le_ceil_mul n hd
  exact Nat.le_of_mul_le_mul_right (h1.trans h2) hd

/-- Rounding up and down agree exactly on multiples. -/
theorem ceil_eq_floor_iff (n : ℕ) (hd : 0 < d) : n ⌈/⌉ d = n / d ↔ n % d = 0 := by
  have hmod := Nat.div_add_mod n d
  have hlow := le_ceil_mul n hd
  have hhigh := ceil_mul_lt n hd
  constructor
  · intro h
    rw [h, Nat.mul_comm] at hlow
    omega
  · intro h
    rw [h, Nat.add_zero, Nat.mul_comm] at hmod
    refine le_antisymm ((ceilDiv_le_iff_le_mul hd).mpr ?_) (floor_le_ceil n hd)
    rw [Nat.mul_comm, hmod]

/-- Rounded down, a sum is no more than its rounded parts exactly when the remainders carry
nothing over. -/
theorem add_floor_le_iff (n k : ℕ) (hd : 0 < d) :
    (n + k) / d ≤ n / d + k / d ↔ n % d + k % d < d := by
  rw [Nat.add_div hd]
  split_ifs with hcarry <;> omega

theorem floor_add_ceil_le (n k : ℕ) (hd : 0 < d) : n / d + k ⌈/⌉ d ≤ (n + k) ⌈/⌉ d := by
  have hsum := le_ceil_mul (n + k) hd
  have hfloor := Nat.div_mul_le_self n d
  have hle : n / d ≤ (n + k) ⌈/⌉ d := Nat.le_of_mul_le_mul_right (by omega) hd
  have hk : k ⌈/⌉ d ≤ (n + k) ⌈/⌉ d - n / d := by
    rw [ceilDiv_le_iff_le_mul hd, Nat.mul_comm, Nat.sub_mul]
    omega
  omega

/-- A sum rounded down is the rounded parts and what their remainders carry over. -/
theorem sum_floor (parts : List ℕ) (hd : 0 < d) :
    parts.sum / d = (parts.map (· / d)).sum + (parts.map (· % d)).sum / d := by
  have hsplit : parts.sum = d * (parts.map (· / d)).sum + (parts.map (· % d)).sum := by
    induction parts with
    | nil => rfl
    | cons part rest ih =>
      simp only [List.map_cons, List.sum_cons, Nat.mul_add]
      have := Nat.div_add_mod part d
      omega
  rw [hsplit, Nat.mul_add_div hd]

/-- Rounded down, it exceeds its rounded parts by less than their number. -/
theorem sum_floor_lt {parts : List ℕ} (hne : parts ≠ []) (hd : 0 < d) :
    parts.sum / d < (parts.map (· / d)).sum + parts.length := by
  have hmods : (parts.map (· % d)).sum ≤ (parts.map (· % d)).length • (d - 1) := by
    refine List.sum_le_card_nsmul _ _ fun x hx => ?_
    obtain ⟨part, _, rfl⟩ := List.mem_map.mp hx
    exact Nat.le_sub_one_of_lt (Nat.mod_lt part hd)
  rw [List.length_map, smul_eq_mul] at hmods
  rw [sum_floor parts hd, Nat.add_lt_add_iff_left, Nat.div_lt_iff_lt_mul hd]
  refine hmods.trans_lt (Nat.mul_lt_mul_of_pos_left ?_ (List.length_pos_of_ne_nil hne))
  exact Nat.sub_one_lt hd.ne'

theorem sum_floor_le (parts : List ℕ) (hd : 0 < d) : (parts.map (· / d)).sum ≤ parts.sum / d := by
  rw [sum_floor parts hd]
  exact Nat.le_add_right _ _

theorem sum_floor_mul_le (parts : List ℕ) (d : ℕ) : (parts.map (· / d)).sum * d ≤ parts.sum := by
  induction parts with
  | nil => simp
  | cons part rest ih =>
    simp only [List.map_cons, List.sum_cons, Nat.add_mul]
    exact Nat.add_le_add (Nat.div_mul_le_self part d) ih

/-- The weighted mean of two numbers, each part rounded down, is above neither. -/
theorem mean_le {a b s hi : ℕ} (hd : 0 < d) (hs : s ≤ d) (ha : a ≤ hi) (hb : b ≤ hi) :
    a * s / d + (d - s) * b / d ≤ hi := by
  have hfirst := Nat.div_mul_le_self (a * s) d
  have hsecond := Nat.div_mul_le_self ((d - s) * b) d
  refine Nat.le_of_mul_le_mul_right ?_ hd
  calc (a * s / d + (d - s) * b / d) * d = a * s / d * d + (d - s) * b / d * d := Nat.add_mul _ _ _
    _ ≤ a * s + (d - s) * b := Nat.add_le_add hfirst hsecond
    _ ≤ hi * s + (d - s) * hi :=
      Nat.add_le_add (Nat.mul_le_mul_right _ ha) (Nat.mul_le_mul_left _ hb)
    _ = hi * (s + (d - s)) := by rw [Nat.mul_add, Nat.mul_comm (d - s)]
    _ = hi * d := by rw [Nat.add_sub_cancel' hs]

/-- It is below the smaller of them by one at most. -/
theorem le_mean_succ {a b s lo : ℕ} (hd : 0 < d) (hs : s ≤ d) (ha : lo ≤ a) (hb : lo ≤ b) :
    lo ≤ a * s / d + (d - s) * b / d + 1 := by
  have hfirst := lt_floor_succ_mul (a * s) hd
  have hsecond := lt_floor_succ_mul ((d - s) * b) hd
  refine Nat.le_of_lt_succ (Nat.lt_of_mul_lt_mul_right (a := d) ?_)
  calc lo * d = lo * s + (d - s) * lo := by
        rw [Nat.mul_comm (d - s), ← Nat.mul_add, Nat.add_sub_cancel' hs]
    _ ≤ a * s + (d - s) * b :=
      Nat.add_le_add (Nat.mul_le_mul_right _ ha) (Nat.mul_le_mul_left _ hb)
    _ < (a * s / d + 1) * d + ((d - s) * b / d + 1) * d := Nat.add_lt_add hfirst hsecond
    _ = (a * s / d + (d - s) * b / d + 1 + 1) * d := by ring

/-! Scaling in two steps against one, where the two factors are together no smaller than the one. -/

section TwoSteps
variable {a r r₁ r₂ : ℕ} (hr : r * d ≤ r₁ * r₂)
include hr

/-- Scaled up in two steps, each rounded down, a number is no larger. -/
theorem scaleUp_twice_le (a : ℕ) (hpos : 0 < r) : a * d / r₁ * d / r₂ ≤ a * d / r := by
  rw [Nat.le_div_iff_mul_le hpos]
  cases Nat.eq_zero_or_pos d with
  | inl hd => simp [hd]
  | inr hd =>
    have hfirst := Nat.div_mul_le_self (a * d) r₁
    have hsecond := Nat.div_mul_le_self (a * d / r₁ * d) r₂
    refine Nat.le_of_mul_le_mul_right ?_ hd
    calc a * d / r₁ * d / r₂ * r * d = a * d / r₁ * d / r₂ * (r * d) := Nat.mul_assoc _ _ _
      _ ≤ a * d / r₁ * d / r₂ * (r₁ * r₂) := Nat.mul_le_mul_left _ hr
      _ = a * d / r₁ * d / r₂ * r₂ * r₁ := by ring
      _ ≤ a * d / r₁ * d * r₁ := Nat.mul_le_mul_right _ hsecond
      _ = a * d / r₁ * r₁ * d := by ring
      _ ≤ a * d * d := Nat.mul_le_mul_right _ hfirst

/-- Scaled down in two steps, it is less than that in one step by one at most. -/
theorem scaleDown_le_twice_succ (a : ℕ) (hd : 0 < d) (hle : r₂ ≤ d) :
    a * r / d ≤ a * r₁ / d * r₂ / d + 1 := by
  have hfirst := lt_floor_succ_mul (a * r₁) hd
  have hsecond := lt_floor_succ_mul (a * r₁ / d * r₂) hd
  refine Nat.le_of_lt_succ (Nat.div_lt_of_lt_mul ?_)
  refine Nat.lt_of_mul_lt_mul_right (a := d) ?_
  calc a * r * d = a * (r * d) := Nat.mul_assoc _ _ _
    _ ≤ a * (r₁ * r₂) := Nat.mul_le_mul_left _ hr
    _ = a * r₁ * r₂ := (Nat.mul_assoc _ _ _).symm
    _ ≤ (a * r₁ / d + 1) * d * r₂ := Nat.mul_le_mul_right _ hfirst.le
    _ = (a * r₁ / d * r₂ + r₂) * d := by ring
    _ ≤ (a * r₁ / d * r₂ + d) * d := Nat.mul_le_mul_right _ (Nat.add_le_add_left hle _)
    _ < ((a * r₁ / d * r₂ / d + 1) * d + d) * d :=
      Nat.mul_lt_mul_of_pos_right (Nat.add_lt_add_right hsecond _) hd
    _ = d * (a * r₁ / d * r₂ / d + 1 + 1) * d := by ring

end TwoSteps

end Nat

/-! ### Integers -/

section Int
variable {r v m d : ℤ}

theorem floor_mul_le (r : ℤ) (hd : 0 < d) : r / d * d ≤ r := Int.ediv_mul_le r hd.ne'

theorem floor_neg (hr : r < 0) (hd : 0 < d) : r / d < 0 := Int.ediv_neg_of_neg_of_pos hr hd

/-- Through the scale `m / d` and back, each time rounded down, a value never grows. -/
theorem roundTrip_le (r : ℤ) (hm : 0 < m) (hd : 0 < d) : r * d / m * m / d ≤ r := by
  have h : r * d / m * m / d ≤ r * d / d := Int.ediv_le_ediv hd (floor_mul_le (r * d) hm)
  rwa [Int.mul_ediv_cancel r hd.ne'] at h

/-- With a scale of at most `g` it loses at most `g`. -/
theorem le_roundTrip {g : ℤ} (r : ℤ) (hm : 0 < m) (hd : 0 < d) (hmd : m ≤ g * d) :
    r - g ≤ r * d / m * m / d := by
  have h : r * d < (r * d / m + 1) * m := Int.lt_ediv_add_one_mul_self (r * d) hm
  rw [Int.le_ediv_iff_mul_le hd]
  linarith

end Int

end IndexProtocol.Rounding
