import Mathlib.Data.Nat.Digits.Defs

/-! Numbers as text.

A number is written in so many digits of a base, the most significant first, each
digit as a symbol. What was written reads back where the symbols do, up to digits that
there was no room for. -/
namespace IndexProtocol.NumberText

section Write
variable {β : Type} {base : ℕ} {symbol : ℕ → β} {m n x : ℕ}

def digitText (base : ℕ) (symbol : ℕ → β) : ℕ → ℕ → List β
  | 0, _ => []
  | n + 1, x => digitText base symbol n (x / base) ++ [symbol (x % base)]

@[simp] theorem length_digitText : (digitText base symbol n x).length = n := by
  induction n generalizing x with
  | zero => rfl
  | succ n ih => rw [digitText, List.length_append, ih, List.length_singleton]

/-- Every symbol is that of a digit. -/
theorem mem_digitText {c : β} (hbase : 0 < base) (h : c ∈ digitText base symbol n x) :
    ∃ d < base, symbol d = c := by
  induction n generalizing x with
  | zero => exact absurd h List.not_mem_nil
  | succ n ih =>
    rw [digitText, List.mem_append, List.mem_singleton] at h
    cases h with
    | inl hfirst => exact ih hfirst
    | inr hlast => exact ⟨x % base, Nat.mod_lt x hbase, hlast.symm⟩

theorem digitText_ofDigits {ds : List ℕ} (hds : ∀ d ∈ ds, d < base) (hlength : ds.length = n) :
    digitText base symbol n (Nat.ofDigits base ds) = (ds.map symbol).reverse := by
  induction ds generalizing n with
  | nil =>
    subst hlength
    rfl
  | cons d rest ih =>
    subst hlength
    have hd : d < base := hds d List.mem_cons_self
    have hbase : 0 < base := Nat.zero_lt_of_lt hd
    have hdiv : (d + base * Nat.ofDigits base rest) / base = Nat.ofDigits base rest := by
      rw [Nat.add_mul_div_left _ _ hbase, Nat.div_eq_of_lt hd, Nat.zero_add]
    have hmod : (d + base * Nat.ofDigits base rest) % base = d := by
      rw [Nat.add_mul_mod_self_left, Nat.mod_eq_of_lt hd]
    rw [Nat.ofDigits_cons, List.length_cons, digitText, hdiv, hmod,
      ih (fun c hc => hds c (List.mem_cons_of_mem d hc)) rfl, List.map_cons, List.reverse_cons]

/-- The first digits are those of what is left without the last. -/
theorem digitText_add :
    digitText base symbol (m + n) x =
      digitText base symbol m (x / base ^ n) ++ digitText base symbol n x := by
  induction n generalizing x with
  | zero => simp [digitText]
  | succ n ih =>
    rw [← Nat.add_assoc, digitText, ih, digitText, Nat.div_div_eq_div_mul, ← Nat.pow_succ',
      List.append_assoc]

theorem digitText_mod : digitText base symbol n (x % base ^ n) = digitText base symbol n x := by
  induction n generalizing x with
  | zero => rfl
  | succ n ih =>
    rw [digitText, digitText, Nat.pow_succ', Nat.mod_mul_right_div_self, ih,
      Nat.mod_mul_right_mod]

theorem take_digitText :
    (digitText base symbol (m + n) x).take m = digitText base symbol m (x / base ^ n) := by
  rw [digitText_add, List.take_append_of_le_length (by rw [length_digitText]),
    List.take_of_length_le (by rw [length_digitText])]

end Write

section Read
variable {β : Type} {base : ℕ} {symbol : ℕ → β} {value : β → ℕ} {n x : ℕ}

def readText (base : ℕ) (value : β → ℕ) (text : List β) : ℕ :=
  text.foldl (fun n c => base * n + value c) 0

theorem readText_concat (text : List β) (c : β) :
    readText base value (text ++ [c]) = base * readText base value text + value c := by
  rw [readText, List.foldl_append]
  rfl

theorem readText_digitText (hvalue : ∀ d < base, value (symbol d) = d) (hx : x < base ^ n) :
    readText base value (digitText base symbol n x) = x := by
  induction n generalizing x with
  | zero =>
    rw [Nat.pow_zero, Nat.lt_one_iff] at hx
    exact hx.symm
  | succ n ih =>
    have hbase : 0 < base := Nat.pos_of_ne_zero fun hzero => by simp [hzero] at hx
    have hdiv : x / base < base ^ n := Nat.div_lt_of_lt_mul (by rwa [← Nat.pow_succ'])
    rw [digitText, readText_concat, ih hdiv, hvalue _ (Nat.mod_lt x hbase), Nat.div_add_mod]

end Read

end IndexProtocol.NumberText
