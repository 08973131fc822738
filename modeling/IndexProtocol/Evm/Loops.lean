import IndexProtocol.Evm.Result

/-! Loops over the indices of an array.

A loop that returns at the first index with a property is a search, and one that writes elements
read at other indices is a copy. Reads and writes are checked, and neither loop meets an index that
the array does not have. -/
namespace IndexProtocol.Evm

/-- `for (i = start; i < start + n; i++)`, left at the first index that passes the test. -/
def search (test : Nat → Result Bool) : Nat → Nat → Result (Option Nat)
  | _, 0 => pure none
  | start, n + 1 => do
    let found ← test start
    if found = true then pure (some start) else search test (start + 1) n

/-- Writes an element at an index, without which the write reverts. -/
def write {α : Type} (as : List α) (i : Nat) (a : α) : Result (List α) :=
  if i < as.length then pure (as.set i a) else revert ""

/-- Copies the element at an index to a place before it. -/
def copy {α : Type} (as : List α) (offset : Nat) (copied : List α) (i : Nat) : Result (List α) := do
  let a ← access as i
  write copied (i - offset) a

section Search
variable {test : Nat → Result Bool} {p : Nat → Prop} [DecidablePred p]

/-- The search ends at the first index with the property, or there is none. -/
theorem search_cases {start n : Nat}
    (h : ∀ i, start ≤ i → i < start + n → test i = .ok (decide (p i))) :
    (∃ i, search test start n = .ok (some i) ∧ start ≤ i ∧ i < start + n ∧ p i ∧
      ∀ j, start ≤ j → j < i → ¬p j) ∨
    search test start n = .ok none ∧ ∀ j, start ≤ j → j < start + n → ¬p j := by
  induction n generalizing start with
  | zero => exact .inr ⟨rfl, fun j hle hlt => absurd hle (Nat.not_le_of_lt hlt)⟩
  | succ n ih =>
    have hfirst : test start = .ok (decide (p start)) := h start (Nat.le_refl _) (by omega)
    by_cases hp : p start
    · refine .inl ⟨start, ?_, Nat.le_refl _, by omega, hp, fun j hle hlt => by omega⟩
      rw [search, hfirst, ok_bind, if_pos (decide_eq_true hp)]
      rfl
    · have hrest : search test start (n + 1) = search test (start + 1) n := by
        rw [search, hfirst, ok_bind, if_neg (by rwa [decide_eq_true_iff])]
      rw [hrest]
      cases @ih (start + 1) fun i hle hlt => h i (by omega) (by omega) with
      | inl hfound =>
        obtain ⟨i, hi, hle, hlt, hpi, hbefore⟩ := hfound
        refine .inl ⟨i, hi, by omega, by omega, hpi, fun j hle hlt => ?_⟩
        cases Nat.eq_or_lt_of_le hle with
        | inl heq => rwa [← heq]
        | inr hgt => exact hbefore j hgt hlt
      | inr hnone =>
        obtain ⟨hsearch, hbefore⟩ := hnone
        refine .inr ⟨hsearch, fun j hle hlt => ?_⟩
        cases Nat.eq_or_lt_of_le hle with
        | inl heq => rwa [← heq]
        | inr hgt => exact hbefore j hgt (by omega)

/-- Whether there is an index with the property. -/
theorem search_isSome {start n : Nat}
    (h : ∀ i, start ≤ i → i < start + n → test i = .ok (decide (p i))) :
    ∃ found, search test start n = .ok found ∧
      (found.isSome = true ↔ ∃ i, start ≤ i ∧ i < start + n ∧ p i) := by
  cases search_cases h with
  | inl hfound =>
    obtain ⟨i, hi, hle, hlt, hpi, _⟩ := hfound
    exact ⟨some i, hi, iff_of_true rfl ⟨i, hle, hlt, hpi⟩⟩
  | inr hnone =>
    obtain ⟨hsearch, hbefore⟩ := hnone
    refine ⟨none, hsearch, iff_of_false Bool.false_ne_true ?_⟩
    rintro ⟨i, hle, hlt, hpi⟩
    exact hbefore i hle hlt hpi

end Search

section Copy
variable {α : Type} {before after : List α} {a b : α}

theorem access_append : access (before ++ a :: after) before.length = .ok a := by
  rw [access, List.getElem?_append_right (Nat.le_refl _), Nat.sub_self]
  rfl

theorem write_append :
    write (before ++ a :: after) before.length b = .ok (before ++ b :: after) := by
  have hlt : before.length < (before ++ a :: after).length := by
    rw [List.length_append, List.length_cons]
    omega
  rw [write, if_pos hlt, List.set_append_right _ _ (Nat.le_refl _), Nat.sub_self]
  rfl

/-- A copied part takes the place of as many elements. -/
theorem copies_part {part : List α} {offset : Nat} {copied rest : List α}
    (hoffset : copied.length + offset = before.length) (hroom : part.length ≤ rest.length) :
    runs (copy (before ++ (part ++ after)) offset) (copied ++ rest)
        (List.range' before.length part.length) =
      .ok (copied ++ (part ++ rest.drop part.length)) := by
  induction part generalizing before copied rest with
  | nil => rfl
  | cons b part ih =>
    cases rest with
    | nil => cases hroom
    | cons z rest =>
      -- One element goes where `z` was, and the others are copied behind it.
      have hplace : before.length - offset = copied.length := by omega
      have hfirst : copy (before ++ b :: (part ++ after)) offset (copied ++ z :: rest)
          before.length = .ok (copied ++ b :: rest) := by
        rw [copy, access_append, ok_bind, hplace]
        exact write_append
      have hlength : before.length + 1 = (before ++ [b]).length := by
        rw [List.length_append, List.length_singleton]
      have hoffset' : (copied ++ [b]).length + offset = (before ++ [b]).length := by
        rw [← hlength, List.length_append, List.length_singleton]
        omega
      rw [List.length_cons, List.range'_succ, runs_cons, List.cons_append, hfirst, ok_bind,
        List.append_cons before, List.append_cons copied b rest, hlength,
        ih hoffset' (Nat.le_of_succ_le_succ hroom), List.drop_succ_cons, List.cons_append,
        List.append_cons copied b (part ++ _)]

end Copy

end IndexProtocol.Evm
