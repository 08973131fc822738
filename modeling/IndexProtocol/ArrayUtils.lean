import IndexProtocol.Evm.Result
import IndexProtocol.Evm.Checked
import IndexProtocol.Evm.Registry

/-! Arrays of addresses and of strings.

`AddressArrayUtils` and `StringArrayUtils` are the same functions over two
element types; they differ in the reason with which removal reverts. -/
namespace IndexProtocol
open Evm

/-- An address is 160 bits; the zero address is 0. -/
abbrev Address := BitVec 160

/-- Membership in a list of addresses is decided by this instance everywhere. -/
instance : LawfulBEq Address := inferInstance

namespace ArrayUtils
variable {α : Type} [DecidableEq α]

/-- The index of the first occurrence, and whether there is one. -/
def indexOf (A : List α) (a : α) : Nat × Bool :=
  if a ∈ A then (A.idxOf a, true) else (uintBound - 1, false)

def contains (A : List α) (a : α) : Bool := (indexOf A a).2

/-- Whether an element is followed by an equal one. -/
def repeats : List α → Bool
  | [] => false
  | current :: rest => rest.any (fun b => current == b) || repeats rest

def hasDuplicate (A : List α) : Result Bool := do
  require (0 < A.length) "A is empty"
  pure (repeats A)

/-- Overwrites the first occurrence with the last element and drops the last. -/
def removeStorage (missing : String) (A : List α) (a : α) : Result (List α) :=
  let (index, isIn) := indexOf A a
  if isIn = false then revert missing
  else
    let lastIndex := A.length - 1
    let A := if index ≠ lastIndex then A.set index (A.getD lastIndex a) else A
    pure A.dropLast

/-- The array without an index, and what was there. -/
def pop (A : List α) (index : Nat) : Result (List α × α) :=
  match A[index]? with
  | none => revert "Index must be < A length"
  | some a => pure (A.take index ++ A.drop (index + 1), a)

/-- Drops the first occurrence and keeps the order of the others. -/
def remove (missing : String) (A : List α) (a : α) : Result (List α) :=
  let (index, isIn) := indexOf A a
  if isIn = false then revert missing
  else do
    let (A, _) ← pop A index
    pure A

@[simp] theorem contains_eq_true (A : List α) (a : α) : contains A a = true ↔ a ∈ A := by
  simp [contains, indexOf]
  split <;> simp_all

theorem repeats_eq_false (A : List α) : repeats A = false ↔ A.Nodup := by
  induction A with
  | nil => simp [repeats]
  | cons a rest ih =>
    have hmem : (∀ b ∈ rest, ¬a = b) ↔ a ∉ rest :=
      ⟨fun h ha => h a ha rfl, fun h b hb hab => h (hab ▸ hb)⟩
    simp [repeats, ih, List.nodup_cons, hmem]

theorem hasDuplicate_eq_false {A : List α} (h : hasDuplicate A = .ok false) : A.Nodup := by
  simp only [hasDuplicate, bind_eq_ok, pure_eq_ok] at h
  obtain ⟨_, _, h⟩ := h
  exact (repeats_eq_false A).mp h

/-- Swap and pop is removal, up to order. -/
theorem swap_pop_perm (before after : List α) (a : α) (ha : a ∉ before) :
    let A := before ++ a :: after
    ((if before.length ≠ A.length - 1 then A.set before.length (A.getD (A.length - 1) a)
      else A).dropLast).Perm (A.erase a) := by
  intro A
  have herase : A.erase a = before ++ after := by
    rw [List.erase_append_right _ ha, List.erase_cons_head]
  rw [herase]
  rcases List.eq_nil_or_concat after with rfl | ⟨middle, z, rfl⟩
  · simp [A]
  · have hlength : A.length - 1 = before.length + middle.length + 1 := by
      simp only [A, List.concat_eq_append, List.length_append, List.length_cons, List.length_nil]
      omega
    have hlast : A.getD (A.length - 1) a = z := by
      have hA : A = (before ++ a :: middle) ++ [z] := by simp [A, List.concat_eq_append]
      rw [hA]
      simp
    rw [if_pos (by omega), hlast]
    have hset : A.set before.length z = (before ++ z :: middle) ++ [z] := by
      simp [A, List.concat_eq_append]
    rw [hset, List.dropLast_concat, List.concat_eq_append]
    exact (List.Perm.append_left before (List.perm_append_singleton z middle).symm)

/-- Removal returns exactly when the element occurs, with one occurrence gone. -/
theorem removeStorage_eq_ok {missing : String} {A A' : List α} {a : α}
    (h : removeStorage missing A a = .ok A') : a ∈ A ∧ A'.Perm (A.erase a) := by
  unfold removeStorage indexOf at h
  by_cases ha : a ∈ A
  · refine ⟨ha, ?_⟩
    obtain ⟨before, after, rfl, hbefore⟩ := List.eq_append_cons_of_mem ha
    have hindex : (before ++ a :: after).idxOf a = before.length := by
      rw [List.idxOf_append_of_notMem hbefore, List.idxOf_cons_self, Nat.add_zero]
    simp only [ha, if_true, Bool.true_eq_false, if_false, hindex, pure_eq_ok] at h
    subst h
    exact swap_pop_perm before after a hbefore
  · simp [ha] at h

theorem remove_eq_ok {missing : String} {A A' : List α} {a : α}
    (h : remove missing A a = .ok A') : a ∈ A ∧ A' = A.erase a := by
  unfold remove indexOf at h
  by_cases ha : a ∈ A
  · refine ⟨ha, ?_⟩
    rw [List.erase_eq_eraseIdx_of_idxOf rfl, List.eraseIdx_eq_take_drop_succ]
    simp only [ha, if_true, Bool.true_eq_false, if_false, pop, bind_eq_ok, pure_eq_ok,
      List.getElem?_eq_getElem (List.idxOf_lt_length_of_mem ha)] at h
    obtain ⟨_, rfl, rfl⟩ := h
    rfl
  · simp [ha] at h

end ArrayUtils

namespace AddressArrayUtils

def contains (A : List Address) (a : Address) : Bool := ArrayUtils.contains A a

def hasDuplicate (A : List Address) : Result Bool := ArrayUtils.hasDuplicate A

def remove (A : List Address) (a : Address) : Result (List Address) :=
  ArrayUtils.remove "Address not in array." A a

def removeStorage (A : List Address) (a : Address) : Result (List Address) :=
  ArrayUtils.removeStorage "Address not in array." A a

/-- The lengths match, and the addresses are some and distinct. -/
def validatePairsWithArray {α : Type} (A : List Address) (B : List α) : Result Unit := do
  require (A.length = B.length) "Array length mismatch"
  require (0 < A.length) "Array length must be > 0"
  let duplicate ← hasDuplicate A
  require (duplicate = false) "Cannot duplicate addresses"

end AddressArrayUtils

namespace StringArrayUtils

def removeStorage (A : List String) (a : String) : Result (List String) :=
  ArrayUtils.removeStorage "String not in array." A a

end StringArrayUtils

end IndexProtocol
