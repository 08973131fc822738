import Mathlib.Data.Nat.Bitwise
import Mathlib.Data.Nat.Digits.Defs

/-! Numbers in slots of equal width.

A word is worked on in all its slots at once: bitwise operations do to each slot what
they do to the word, and so do sums and products as long as nothing leaves its slot.
`spread` takes each slot apart in two halves. In a word whose slots are half empty that
is one shift, one or and one mask (`or_shift_and_mask`), and the halves have the room
that the slot had. -/
namespace IndexProtocol.Slots

variable {α : Type} {w : ℕ}

/-! ### Operations on all slots -/

section Slotwise

theorem testBit_cons {a x : ℕ} (ha : a < 2 ^ w) (i : ℕ) :
    (a + 2 ^ w * x).testBit i = if i < w then a.testBit i else x.testBit (i - w) := by
  rw [Nat.add_comm, Nat.testBit_two_pow_mul_add x ha]

theorem and_cons {a b x y : ℕ} (ha : a < 2 ^ w) (hb : b < 2 ^ w) :
    (a + 2 ^ w * x) &&& (b + 2 ^ w * y) = (a &&& b) + 2 ^ w * (x &&& y) := by
  refine Nat.eq_of_testBit_eq fun i => ?_
  simp only [Nat.testBit_and, testBit_cons ha, testBit_cons hb,
    testBit_cons (Nat.and_lt_two_pow a hb)]
  split <;> rfl

theorem or_cons {a b x y : ℕ} (ha : a < 2 ^ w) (hb : b < 2 ^ w) :
    (a + 2 ^ w * x) ||| (b + 2 ^ w * y) = (a ||| b) + 2 ^ w * (x ||| y) := by
  refine Nat.eq_of_testBit_eq fun i => ?_
  simp only [Nat.testBit_or, testBit_cons ha, testBit_cons hb,
    testBit_cons (Nat.or_lt_two_pow ha hb)]
  split <;> rfl

variable {f g : α → ℕ} {as : List α}

theorem ofDigits_and (hf : ∀ a ∈ as, f a < 2 ^ w) (hg : ∀ a ∈ as, g a < 2 ^ w) :
    Nat.ofDigits (2 ^ w) (as.map f) &&& Nat.ofDigits (2 ^ w) (as.map g) =
      Nat.ofDigits (2 ^ w) (as.map fun a => f a &&& g a) := by
  induction as with
  | nil => exact Nat.and_zero 0
  | cons a rest ih =>
    simp only [List.map_cons, Nat.ofDigits_cons]
    rw [and_cons (hf a List.mem_cons_self) (hg a List.mem_cons_self),
      ih (fun b hb => hf b (List.mem_cons_of_mem a hb)) fun b hb =>
        hg b (List.mem_cons_of_mem a hb)]

theorem ofDigits_or (hf : ∀ a ∈ as, f a < 2 ^ w) (hg : ∀ a ∈ as, g a < 2 ^ w) :
    Nat.ofDigits (2 ^ w) (as.map f) ||| Nat.ofDigits (2 ^ w) (as.map g) =
      Nat.ofDigits (2 ^ w) (as.map fun a => f a ||| g a) := by
  induction as with
  | nil => exact Nat.or_zero 0
  | cons a rest ih =>
    simp only [List.map_cons, Nat.ofDigits_cons]
    rw [or_cons (hf a List.mem_cons_self) (hg a List.mem_cons_self),
      ih (fun b hb => hf b (List.mem_cons_of_mem a hb)) fun b hb =>
        hg b (List.mem_cons_of_mem a hb)]

theorem ofDigits_add (b : ℕ) :
    Nat.ofDigits b (as.map f) + Nat.ofDigits b (as.map g) =
      Nat.ofDigits b (as.map fun a => f a + g a) := by
  induction as with
  | nil => rfl
  | cons a rest ih =>
    simp only [List.map_cons, Nat.ofDigits_cons, ← ih, Nat.mul_add]
    omega

theorem ofDigits_mul (b c : ℕ) :
    Nat.ofDigits b (as.map f) * c = Nat.ofDigits b (as.map fun a => f a * c) := by
  induction as with
  | nil => exact Nat.zero_mul c
  | cons a rest ih => simp only [List.map_cons, Nat.ofDigits_cons, ← ih, Nat.add_mul, Nat.mul_assoc]

/-- Slots that are multiples are divided each for itself. -/
theorem ofDigits_div {b c : ℕ} (hc : 0 < c) (hdvd : ∀ a ∈ as, c ∣ f a) :
    Nat.ofDigits b (as.map f) / c = Nat.ofDigits b (as.map fun a => f a / c) := by
  have hmul : as.map f = as.map fun a => f a / c * c :=
    List.map_congr_left fun a ha => (Nat.div_mul_cancel (hdvd a ha)).symm
  rw [hmul, ← ofDigits_mul, Nat.mul_div_cancel _ hc]

theorem ofDigits_lt {n : ℕ} (h : ∀ a ∈ as, f a < 2 ^ w) (hn : as.length = n) :
    Nat.ofDigits (2 ^ w) (as.map f) < 2 ^ (w * n) := by
  subst hn
  induction as with
  | nil => simp
  | cons a rest ih =>
    have ha := h a List.mem_cons_self
    have hrest := ih fun b hb => h b (List.mem_cons_of_mem a hb)
    have hpow : 2 ^ (w * (rest.length + 1)) = 2 ^ w * 2 ^ (w * rest.length) := by
      rw [← Nat.pow_add, Nat.mul_succ, Nat.add_comm]
    rw [List.map_cons, Nat.ofDigits_cons, List.length_cons, hpow]
    calc f a + 2 ^ w * Nat.ofDigits (2 ^ w) (rest.map f)
        < 2 ^ w * (Nat.ofDigits (2 ^ w) (rest.map f) + 1) := by rw [Nat.mul_succ]; omega
      _ ≤ 2 ^ w * 2 ^ (w * rest.length) := Nat.mul_le_mul_left _ hrest

end Slotwise

/-! ### Halves -/

/-- Every slot in two halves, the lower one first. -/
def spread (w : ℕ) (ds : List ℕ) : List ℕ := ds.flatMap fun d => [d % 2 ^ w, d / 2 ^ w]

variable {ds : List ℕ}

theorem length_spread : (spread w ds).length = 2 * ds.length := by
  induction ds with
  | nil => rfl
  | cons d rest ih =>
    show (spread w rest).length + 2 = 2 * (rest.length + 1)
    rw [ih, Nat.mul_succ]

/-- The halves write the same number. -/
theorem ofDigits_spread : Nat.ofDigits (2 ^ w) (spread w ds) = Nat.ofDigits (2 ^ (2 * w)) ds := by
  induction ds with
  | nil => rfl
  | cons d rest ih =>
    have hdiv := Nat.mod_add_div d (2 ^ w)
    show Nat.ofDigits (2 ^ w) (d % 2 ^ w :: d / 2 ^ w :: spread w rest) = _
    rw [Nat.ofDigits_cons, Nat.ofDigits_cons, Nat.ofDigits_cons, ih, Nat.two_mul w, Nat.pow_add]
    rw [Nat.mul_add, ← Nat.add_assoc, hdiv, Nat.mul_assoc]

theorem spread_lt (h : ∀ d ∈ ds, d < 2 ^ (2 * w)) : ∀ d ∈ spread w ds, d < 2 ^ w := by
  intro d hd
  simp only [spread, List.mem_flatMap, List.mem_cons, List.not_mem_nil, or_false] at hd
  obtain ⟨c, hc, hd⟩ := hd
  have hpow : (2 : ℕ) ^ (2 * w) = 2 ^ w * 2 ^ w := by rw [Nat.two_mul, Nat.pow_add]
  cases hd with
  | inl hlow => exact hlow ▸ Nat.mod_lt c (Nat.two_pow_pos w)
  | inr hhigh => exact hhigh ▸ Nat.div_lt_of_lt_mul (hpow ▸ h c hc)

/-- The bits of the lower and of the third quarter of a slot. -/
def quarters (w : ℕ) : ℕ := (2 ^ w - 1) + 2 ^ (2 * w) * (2 ^ w - 1)

/-- In a slot of which the upper half is empty. -/
theorem slot_quarters {d : ℕ} (h : d < 2 ^ (2 * w)) :
    (d ||| d * 2 ^ w) &&& quarters w = d % 2 ^ w + 2 ^ (2 * w) * (d / 2 ^ w) := by
  have hpow : (2 : ℕ) ^ (2 * w) = 2 ^ w * 2 ^ w := by rw [Nat.two_mul, Nat.pow_add]
  have hlow : d % 2 ^ w < 2 ^ w := Nat.mod_lt d (Nat.two_pow_pos w)
  have hhigh : d / 2 ^ w < 2 ^ w := Nat.div_lt_of_lt_mul (hpow ▸ h)
  have hmask : 2 ^ w - 1 < 2 ^ w := Nat.sub_lt (Nat.two_pow_pos w) Nat.one_pos
  have hself {a : ℕ} (ha : a < 2 ^ w) : a &&& (2 ^ w - 1) = a := by
    rw [Nat.and_two_pow_sub_one_eq_mod, Nat.mod_eq_of_lt ha]
  -- The slot, what is shifted and the mask, quarter by quarter.
  have hd : d = d % 2 ^ w + 2 ^ w * (d / 2 ^ w + 2 ^ w * 0) := by
    rw [Nat.mul_zero, Nat.add_zero, Nat.mod_add_div]
  have hshift : d * 2 ^ w = 0 + 2 ^ w * (d % 2 ^ w + 2 ^ w * (d / 2 ^ w)) := by
    rw [Nat.mod_add_div, Nat.zero_add, Nat.mul_comm]
  have hquarters : quarters w = (2 ^ w - 1) + 2 ^ w * (0 + 2 ^ w * (2 ^ w - 1)) := by
    rw [quarters, hpow, Nat.zero_add, Nat.mul_assoc]
  have hor : d ||| d * 2 ^ w = d % 2 ^ w + 2 ^ w * ((d / 2 ^ w ||| d % 2 ^ w) +
      2 ^ w * (d / 2 ^ w)) := by
    conv_lhs => rw [hshift]; arg 1; rw [hd]
    rw [or_cons hlow (Nat.two_pow_pos w), or_cons hhigh hlow, Nat.or_zero, Nat.zero_or]
  rw [hor, hquarters, and_cons hlow hmask, and_cons (Nat.or_lt_two_pow hhigh hlow)
    (Nat.two_pow_pos w), hself hlow, hself hhigh, Nat.and_zero, Nat.zero_add, hpow, Nat.mul_assoc]

theorem quarters_lt : quarters w < 2 ^ (4 * w) := by
  have hpos : 1 ≤ 2 ^ w := Nat.two_pow_pos w
  have hle : (2 : ℕ) ^ w ≤ 2 ^ (2 * w) := Nat.pow_le_pow_right Nat.two_pos (by omega)
  calc quarters w
      < 2 ^ (2 * w) + 2 ^ (2 * w) * (2 ^ w - 1) := by rw [quarters]; omega
    _ = 2 ^ (2 * w) * 2 ^ w := by
      rw [Nat.add_comm, ← Nat.mul_succ, Nat.succ_eq_add_one, Nat.sub_add_cancel hpos]
    _ ≤ 2 ^ (4 * w) := by
      rw [← Nat.pow_add]
      exact Nat.pow_le_pow_right Nat.two_pos (by omega)

/-- Two halves in the room of the slot. -/
theorem ofDigits_halves :
    Nat.ofDigits (2 ^ (4 * w)) (ds.map fun d => d % 2 ^ w + 2 ^ (2 * w) * (d / 2 ^ w)) =
      Nat.ofDigits (2 ^ (2 * w)) (spread w ds) := by
  have hpow : (2 : ℕ) ^ (4 * w) = 2 ^ (2 * w) * 2 ^ (2 * w) := by
    rw [← Nat.pow_add]
    congr 1
    omega
  induction ds with
  | nil => rfl
  | cons d rest ih =>
    show _ = Nat.ofDigits (2 ^ (2 * w)) (d % 2 ^ w :: d / 2 ^ w :: spread w rest)
    rw [List.map_cons, Nat.ofDigits_cons, Nat.ofDigits_cons, Nat.ofDigits_cons, ih, hpow,
      Nat.mul_add, Nat.mul_assoc, Nat.add_assoc]

/-- A shift, an or and a mask take all slots apart. -/
theorem or_shift_and_mask (h : ∀ d ∈ ds, d < 2 ^ (2 * w)) :
    (Nat.ofDigits (2 ^ (4 * w)) ds ||| Nat.ofDigits (2 ^ (4 * w)) ds * 2 ^ w) &&&
        Nat.ofDigits (2 ^ (4 * w)) (ds.map fun _ => quarters w) =
      Nat.ofDigits (2 ^ (2 * w)) (spread w ds) := by
  have hslot {a b : ℕ} (ha : a < 2 ^ b) (hb : b ≤ 4 * w) : a < 2 ^ (4 * w) :=
    ha.trans_le (Nat.pow_le_pow_right Nat.two_pos hb)
  have hshift : ∀ d ∈ ds, id d * 2 ^ w < 2 ^ (4 * w) := by
    intro d hd
    refine hslot (b := 2 * w + w) ?_ (by omega)
    rw [Nat.pow_add]
    exact Nat.mul_lt_mul_of_pos_right (h d hd) (Nat.two_pow_pos w)
  have hid : ∀ d ∈ ds, id d < 2 ^ (4 * w) := fun d hd => hslot (h d hd) (by omega)
  have hor : Nat.ofDigits (2 ^ (4 * w)) ds ||| Nat.ofDigits (2 ^ (4 * w)) ds * 2 ^ w =
      Nat.ofDigits (2 ^ (4 * w)) (ds.map fun d => id d ||| id d * 2 ^ w) := by
    rw [← ofDigits_or hid hshift, ← ofDigits_mul, List.map_id]
  rw [hor, ofDigits_and (fun d hd => Nat.or_lt_two_pow (hid d hd) (hshift d hd))
    fun _ _ => quarters_lt, ← ofDigits_halves]
  exact congrArg _ (List.map_congr_left fun d hd => slot_quarters (h d hd))

end IndexProtocol.Slots
