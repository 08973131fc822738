import IndexProtocol.ArrayUtils
import IndexProtocol.Evm.Loops

/-! The loops of the array utilities.

The functions are loops over indices: searches that return at an index or with a sentinel, and
copies into a new array. Each loop returns what the functions on lists do, which the contracts are
modelled with, so what those promise holds of the loops. Strings are compared by their hashes. -/
namespace IndexProtocol
open Evm

namespace ArrayLoops
variable {α : Type} (same : α → α → Bool)

/-- The index of the first occurrence, and whether there is one. -/
def indexOf (A : List α) (a : α) : Result (Nat × Bool) := do
  let found ← search (fun i => do
      let current ← access A i
      pure (same current a))
    0 A.length
  match found with
  | some i => pure (i, true)
  | none => pure (uintBound - 1, false)

/-- Overwrites the first occurrence with the last element and drops the last. -/
def removeStorage (missing : String) (A : List α) (a : α) : Result (List α) := do
  let (index, isIn) ← indexOf same A a
  if isIn = false then revert missing
  else do
    let lastIndex := A.length - 1
    let A ← if index ≠ lastIndex then do
        let last ← access A lastIndex
        write A index last
      else pure A
    pure A.dropLast

end ArrayLoops

namespace AddressArrayLoops

def indexOf (A : List Address) (a : Address) : Result (Nat × Bool) :=
  ArrayLoops.indexOf (fun current a => current == a) A a

def contains (A : List Address) (a : Address) : Result Bool := do
  let (_, isIn) ← indexOf A a
  pure isIn

/-- The inner loop of `hasDuplicate`: whether the element at an index occurs behind it. -/
def occursBehind (A : List Address) (i : Nat) : Result Bool := do
  let current ← access A i
  let found ← search (fun j => do
      let other ← access A j
      pure (current == other))
    (i + 1) (A.length - (i + 1))
  pure found.isSome

/-- The outer loop stops before the last element. -/
def hasDuplicate (A : List Address) : Result Bool := do
  require (0 < A.length) "A is empty"
  let found ← search (occursBehind A) 0 (A.length - 1)
  pure found.isSome

/-- Copies what is before the index, and what is behind it to one place before. -/
def pop (A : List Address) (index : Nat) : Result (List Address × Address) := do
  require (index < A.length) "Index must be < A length"
  let newAddresses := List.replicate (A.length - 1) 0
  let newAddresses ← runs (copy A 0) newAddresses (List.range index)
  let newAddresses ← runs (copy A 1) newAddresses
    (List.range' (index + 1) (A.length - (index + 1)))
  let entry ← access A index
  pure (newAddresses, entry)

def remove (A : List Address) (a : Address) : Result (List Address) := do
  let (index, isIn) ← indexOf A a
  if isIn = false then revert "Address not in array."
  else do
    let (A, _) ← pop A index
    pure A

def removeStorage (A : List Address) (a : Address) : Result (List Address) :=
  ArrayLoops.removeStorage (fun current a => current == a) "Address not in array." A a

def validateLengthAndUniqueness (A : List Address) : Result Unit := do
  require (0 < A.length) "Array length must be > 0"
  let duplicate ← hasDuplicate A
  require (duplicate = false) "Cannot duplicate addresses"

/-- The same for each type of the second array. -/
def validatePairsWithArray {β : Type} (A : List Address) (B : List β) : Result Unit := do
  require (A.length = B.length) "Array length mismatch"
  validateLengthAndUniqueness A

end AddressArrayLoops

namespace StringArrayLoops
variable (keccak256 : String → BitVec 256)

def indexOf (A : List String) (a : String) : Result (Nat × Bool) :=
  ArrayLoops.indexOf (fun current a => keccak256 current == keccak256 a) A a

def removeStorage (A : List String) (a : String) : Result (List String) :=
  ArrayLoops.removeStorage (fun current a => keccak256 current == keccak256 a)
    "String not in array." A a

end StringArrayLoops

namespace ArrayLoops
variable {α : Type}

/-- A search for an element finds its first index where it occurs, and ends with the sentinel
elsewhere. -/
def FindsFirst (A : List α) (a : α) (result : Result (Nat × Bool)) : Prop :=
  (∃ i, result = .ok (i, true) ∧ A[i]? = some a ∧ ∀ j < i, A[j]? ≠ some a) ∨
    result = .ok (uintBound - 1, false) ∧ a ∉ A

/-- A removal leaves the array without one occurrence, in some order, and reverts without one. -/
def RemovesOne (A : List α) (a : α) (missing : String) (result : Result (List α)) : Prop :=
  (a ∈ A ∧ ∃ A', result = .ok A' ∧ A.Perm (a :: A')) ∨ a ∉ A ∧ result = .error missing

variable [DecidableEq α] {same : α → α → Bool} {A : List α} {a : α}

theorem indexOf_findsFirst (hsame : ∀ b ∈ A, same b a = decide (b = a)) :
    FindsFirst A a (indexOf same A a) := by
  have htest : ∀ i, 0 ≤ i → i < 0 + A.length →
      (do let current ← access A i; pure (same current a) : Result Bool) =
        .ok (decide (A[i]? = some a)) := by
    intro i _ hi
    rw [Nat.zero_add] at hi
    rw [access_eq hi, ok_bind, hsame _ (List.getElem_mem hi), List.getElem?_eq_getElem hi,
      decide_eq_decide.mpr Option.some_inj.symm]
    rfl
  cases search_cases htest with
  | inl hfound =>
    obtain ⟨i, hsearch, _, _, hget, hbefore⟩ := hfound
    refine .inl ⟨i, ?_, hget, fun j hj => hbefore j (Nat.zero_le j) hj⟩
    rw [indexOf, hsearch]
    rfl
  | inr hnone =>
    obtain ⟨hsearch, hbefore⟩ := hnone
    refine .inr ⟨?_, fun ha => ?_⟩
    · rw [indexOf, hsearch]
      rfl
    · obtain ⟨i, hi, rfl⟩ := List.mem_iff_getElem.mp ha
      exact hbefore i (Nat.zero_le i) (by omega) (List.getElem?_eq_getElem hi)

/-- The search returns what the function on lists does, where equal elements are told apart. -/
theorem indexOf_eq (hsame : ∀ b ∈ A, same b a = decide (b = a)) :
    indexOf same A a = .ok (ArrayUtils.indexOf A a) := by
  cases indexOf_findsFirst hsame with
  | inl hfound =>
    obtain ⟨i, hindex, hget, hbefore⟩ := hfound
    obtain ⟨hi, hat⟩ := List.getElem?_eq_some_iff.mp hget
    have hfirst : A.idxOf a = i := by
      refine (List.findIdx_eq hi).mpr ⟨beq_iff_eq.mpr hat, fun j hj => ?_⟩
      have hne := hbefore j hj
      rw [List.getElem?_eq_getElem (hj.trans hi)] at hne
      exact beq_eq_false_iff_ne.mpr fun h => hne (congrArg some h)
    rw [hindex, ArrayUtils.indexOf, if_pos (List.mem_of_getElem? hget), hfirst]
  | inr hnone => rw [hnone.1, ArrayUtils.indexOf, if_neg hnone.2]

theorem removeStorage_eq {missing : String} (hsame : ∀ b ∈ A, same b a = decide (b = a)) :
    removeStorage same missing A a = ArrayUtils.removeStorage missing A a := by
  rw [removeStorage, indexOf_eq hsame, ok_bind, ArrayUtils.removeStorage, ArrayUtils.indexOf]
  by_cases ha : a ∈ A
  · have hindex : A.idxOf a < A.length := List.idxOf_lt_length_of_mem ha
    have hlast : A.length - 1 < A.length := by omega
    have hread : access A (A.length - 1) = .ok (A.getD (A.length - 1) a) := by
      rw [access_eq hlast, List.getD_eq_getElem?_getD, List.getElem?_eq_getElem hlast,
        Option.getD_some]
    have hwrite : write A (A.idxOf a) (A.getD (A.length - 1) a) =
        .ok (A.set (A.idxOf a) (A.getD (A.length - 1) a)) := if_pos hindex
    simp only [ha, if_true, Bool.true_eq_false, if_false, hread, ok_bind, hwrite]
    split_ifs <;> rfl
  · simp only [ha, if_false, if_true]

theorem removeStorage_removesOne (missing : String)
    (hsame : ∀ b ∈ A, same b a = decide (b = a)) :
    RemovesOne A a missing (removeStorage same missing A a) := by
  rw [removeStorage_eq hsame]
  by_cases ha : a ∈ A
  · have hreturns : ∃ A', ArrayUtils.removeStorage missing A a = .ok A' := by
      rw [ArrayUtils.removeStorage, ArrayUtils.indexOf, if_pos ha]
      exact ⟨_, rfl⟩
    obtain ⟨A', hremoved⟩ := hreturns
    have hperm := (ArrayUtils.removeStorage_eq_ok hremoved).2
    exact .inl ⟨ha, A', hremoved, (List.perm_cons_erase ha).trans (hperm.symm.cons a)⟩
  · rw [ArrayUtils.removeStorage, ArrayUtils.indexOf, if_neg ha]
    exact .inr ⟨ha, rfl⟩

end ArrayLoops

namespace AddressArrayLoops
variable {A : List Address} {a : Address}

theorem indexOf_eq : indexOf A a = .ok (ArrayUtils.indexOf A a) :=
  ArrayLoops.indexOf_eq fun _ _ => rfl

theorem contains_eq : contains A a = .ok (AddressArrayUtils.contains A a) := by
  rw [contains, indexOf_eq, ok_bind]
  rfl

theorem removeStorage_eq : removeStorage A a = AddressArrayUtils.removeStorage A a :=
  ArrayLoops.removeStorage_eq fun _ _ => rfl

/-- The first loop copies what is before the index. -/
theorem copies_before (before after : List Address) (a : Address) :
    runs (copy (before ++ a :: after) 0) (List.replicate ((before ++ a :: after).length - 1) 0)
      (List.range before.length) = .ok (before ++ List.replicate after.length 0) := by
  have hlength : (before ++ a :: after).length - 1 = before.length + after.length := by
    rw [List.length_append, List.length_cons]
    rfl
  have hroom : before.length ≤
      (List.replicate (before.length + after.length) (0 : Address)).length := by
    rw [List.length_replicate]
    exact Nat.le_add_right _ _
  have hcopies := @copies_part _ [] (a :: after) before 0 [] _ rfl hroom
  rw [List.drop_replicate, Nat.add_sub_cancel_left] at hcopies
  rw [hlength, List.range_eq_range']
  exact hcopies

/-- The second loop copies what is behind it, one place before. -/
theorem copies_behind (before after : List Address) (a : Address) :
    runs (copy (before ++ a :: after) 1) (before ++ List.replicate after.length 0)
        (List.range' (before.length + 1)
          ((before ++ a :: after).length - (before.length + 1))) = .ok (before ++ after) := by
  have hcount : (before ++ a :: after).length - (before.length + 1) = after.length := by
    rw [List.length_append, List.length_cons]
    omega
  have hplace : (before ++ [a]).length = before.length + 1 := by
    rw [List.length_append, List.length_singleton]
  have hroom : after.length ≤ (List.replicate after.length (0 : Address)).length :=
    List.length_replicate.ge
  have hcopies := @copies_part _ (before ++ [a]) [] after 1 before _ hplace.symm hroom
  rw [List.drop_replicate, Nat.sub_self, List.append_nil, ← List.append_cons, hplace] at hcopies
  rw [hcount, hcopies, List.replicate_zero, List.append_nil]

/-- The entry at an index, and the others in order. -/
theorem pop_append (before after : List Address) (a : Address) :
    pop (before ++ a :: after) before.length = .ok (before ++ after, a) := by
  have hindex : before.length < (before ++ a :: after).length := by
    rw [List.length_append, List.length_cons]
    omega
  rw [pop, require, if_pos hindex, ok_bind]
  simp only [copies_before, copies_behind, access_append, ok_bind]
  rfl

theorem pop_cases (A : List Address) (index : Nat) :
    (∃ before entry after, A = before ++ entry :: after ∧ before.length = index ∧
      pop A index = .ok (before ++ after, entry)) ∨
      A.length ≤ index ∧ pop A index = .error "Index must be < A length" := by
  by_cases hindex : index < A.length
  · have hsplit : A = A.take index ++ A[index] :: A.drop (index + 1) := by
      rw [List.getElem_cons_drop, List.take_append_drop]
    have hplace : (A.take index).length = index := List.length_take_of_le hindex.le
    have hpop := pop_append (A.take index) (A.drop (index + 1)) A[index]
    rw [← hsplit, hplace] at hpop
    exact .inl ⟨A.take index, A[index], A.drop (index + 1), hsplit, hplace, hpop⟩
  · refine .inr ⟨not_lt.mp hindex, ?_⟩
    rw [pop, require, if_neg hindex]
    rfl

theorem pop_eq (A : List Address) (index : Nat) : pop A index = ArrayUtils.pop A index := by
  cases pop_cases A index with
  | inl hsplit =>
    obtain ⟨before, entry, after, rfl, rfl, hpop⟩ := hsplit
    have hbehind : (before ++ entry :: after).drop (before.length + 1) = after := by
      rw [List.append_cons]
      exact List.drop_left' (by rw [List.length_append, List.length_singleton])
    rw [hpop, ArrayUtils.pop, List.getElem?_append_right le_rfl, Nat.sub_self,
      List.take_left' rfl, hbehind]
    rfl
  | inr hout =>
    rw [hout.2, ArrayUtils.pop, List.getElem?_eq_none hout.1]
    rfl

theorem remove_eq : remove A a = AddressArrayUtils.remove A a := by
  rw [remove, indexOf_eq, ok_bind, AddressArrayUtils.remove, ArrayUtils.remove]
  simp only [pop_eq]

/-- An element occurs again behind an index. -/
def RepeatedAt (A : List Address) (i : Nat) : Prop := ∃ j < A.length, i < j ∧ A[i]? = A[j]?

instance (A : List Address) (i : Nat) : Decidable (RepeatedAt A i) := Nat.decidableExistsLT A.length

theorem occursBehind_eq {i : Nat} (hi : i < A.length) :
    occursBehind A i = .ok (decide (RepeatedAt A i)) := by
  have htest : ∀ j, i + 1 ≤ j → j < i + 1 + (A.length - (i + 1)) →
      (do let other ← access A j; pure (A[i] == other) : Result Bool) =
        .ok (decide (A[i]? = A[j]?)) := by
    intro j _ hj
    have hlt : j < A.length := by omega
    rw [access_eq hlt, ok_bind, List.getElem?_eq_getElem hi, List.getElem?_eq_getElem hlt,
      decide_eq_decide.mpr Option.some_inj]
    rfl
  obtain ⟨found, hsearch, hfound⟩ := search_isSome htest
  have hrepeated : found.isSome = decide (RepeatedAt A i) := by
    rw [Bool.eq_iff_iff, hfound, decide_eq_true_iff]
    constructor
    · rintro ⟨j, hle, hlt, heq⟩
      exact ⟨j, by omega, hle, heq⟩
    · rintro ⟨j, hlt, hle, heq⟩
      exact ⟨j, hle, by omega, heq⟩
  rw [occursBehind, access_eq hi, ok_bind, hsearch, ok_bind, hrepeated]
  rfl

theorem repeats_iff : ArrayUtils.repeats A = true ↔ ∃ i < A.length - 1, RepeatedAt A i := by
  rw [← Bool.not_eq_false, ArrayUtils.repeats_eq_false, List.nodup_iff_getElem?_ne_getElem?]
  constructor
  · intro h
    push Not at h
    obtain ⟨i, j, hlt, hj, heq⟩ := h
    exact ⟨i, by omega, j, hj, hlt, heq⟩
  · rintro ⟨i, _, j, hj, hlt, heq⟩ h
    exact h i j hlt hj heq

theorem hasDuplicate_eq : hasDuplicate A = AddressArrayUtils.hasDuplicate A := by
  have htest : ∀ i, 0 ≤ i → i < 0 + (A.length - 1) →
      occursBehind A i = .ok (decide (RepeatedAt A i)) :=
    fun i _ hi => occursBehind_eq (by omega)
  obtain ⟨found, hsearch, hfound⟩ := search_isSome htest
  have hrepeats : found.isSome = ArrayUtils.repeats A := by
    rw [Bool.eq_iff_iff, hfound, repeats_iff]
    simp only [Nat.zero_le, true_and, Nat.zero_add]
  rw [hasDuplicate, AddressArrayUtils.hasDuplicate, ArrayUtils.hasDuplicate, hsearch, ← hrepeats]
  rfl

theorem validatePairsWithArray_eq {β : Type} {B : List β} :
    validatePairsWithArray A B = AddressArrayUtils.validatePairsWithArray A B := by
  rw [validatePairsWithArray, validateLengthAndUniqueness, hasDuplicate_eq]
  rfl

/-- The first occurrence goes, and the others stay in order. -/
theorem remove_cases :
    (∃ before after, A = before ++ a :: after ∧ a ∉ before ∧ remove A a = .ok (before ++ after)) ∨
      a ∉ A ∧ remove A a = .error "Address not in array." := by
  by_cases ha : a ∈ A
  · obtain ⟨before, after, rfl, hbefore⟩ := List.eq_append_cons_of_mem ha
    have hindex : (before ++ a :: after).idxOf a = before.length := by
      rw [List.idxOf_append_of_notMem hbefore, List.idxOf_cons_self, Nat.add_zero]
    refine .inl ⟨before, after, rfl, hbefore, ?_⟩
    rw [remove, indexOf_eq, ArrayUtils.indexOf, if_pos ha, hindex]
    show (do let (A, _) ← pop (before ++ a :: after) before.length; pure A) = _
    rw [pop_append]
    rfl
  · refine .inr ⟨ha, ?_⟩
    rw [remove, indexOf_eq, ArrayUtils.indexOf, if_neg ha]
    rfl

theorem hasDuplicate_of_ne_nil (hne : A ≠ []) :
    hasDuplicate A = .ok (ArrayUtils.repeats A) := by
  rw [hasDuplicate_eq, AddressArrayUtils.hasDuplicate, ArrayUtils.hasDuplicate, require,
    if_pos (List.length_pos_of_ne_nil hne)]
  rfl

theorem validatePairsWithArray_accepts {β : Type} {B : List β} :
    validatePairsWithArray A B = .ok () ↔ A ≠ [] ∧ A.Nodup ∧ A.length = B.length := by
  simp only [validatePairsWithArray, validateLengthAndUniqueness, bind_eq_ok, require_eq_ok,
    exists_const]
  constructor
  · rintro ⟨hlength, hpos, _, hduplicate, rfl⟩
    have hne := List.ne_nil_of_length_pos hpos
    rw [hasDuplicate_of_ne_nil hne] at hduplicate
    exact ⟨hne, (ArrayUtils.repeats_eq_false A).mp (Except.ok.inj hduplicate), hlength⟩
  · rintro ⟨hne, hnodup, hlength⟩
    refine ⟨hlength, List.length_pos_of_ne_nil hne, false, ?_, rfl⟩
    rw [hasDuplicate_of_ne_nil hne, (ArrayUtils.repeats_eq_false A).mpr hnodup]

end AddressArrayLoops

open ArrayLoops in
/-- **The array utilities are what they say**, for all arrays and elements. Strings are told apart
as far as their hashes are. -/
theorem array_utilities (A : List Address) (a : Address) :
    FindsFirst A a (AddressArrayLoops.indexOf A a) ∧
    RemovesOne A a "Address not in array." (AddressArrayLoops.removeStorage A a) ∧
    ((∃ before after, A = before ++ a :: after ∧ a ∉ before ∧
        AddressArrayLoops.remove A a = .ok (before ++ after)) ∨
      a ∉ A ∧ AddressArrayLoops.remove A a = .error "Address not in array.") ∧
    (∀ index, (∃ before entry after, A = before ++ entry :: after ∧ before.length = index ∧
        AddressArrayLoops.pop A index = .ok (before ++ after, entry)) ∨
      A.length ≤ index ∧ AddressArrayLoops.pop A index = .error "Index must be < A length") ∧
    (A ≠ [] → ∃ found, AddressArrayLoops.hasDuplicate A = .ok found ∧
      (found = true ↔ ∃ b, 1 < A.count b)) ∧
    (∀ {β : Type} (B : List β), AddressArrayLoops.validatePairsWithArray A B = .ok () ↔
      A ≠ [] ∧ A.Nodup ∧ A.length = B.length) ∧
    ∀ (keccak256 : String → BitVec 256) (S : List String) (s : String),
      (∀ t ∈ S, keccak256 t = keccak256 s → t = s) →
      FindsFirst S s (StringArrayLoops.indexOf keccak256 S s) ∧
        RemovesOne S s "String not in array." (StringArrayLoops.removeStorage keccak256 S s) := by
  refine ⟨indexOf_findsFirst fun _ _ => rfl, removeStorage_removesOne _ fun _ _ => rfl,
    AddressArrayLoops.remove_cases, AddressArrayLoops.pop_cases A, fun hne => ?_,
    fun B => AddressArrayLoops.validatePairsWithArray_accepts, fun keccak256 S s hhash => ?_⟩
  · refine ⟨_, AddressArrayLoops.hasDuplicate_of_ne_nil hne, ?_⟩
    rw [← Bool.not_eq_false, ArrayUtils.repeats_eq_false, List.nodup_iff_count_le_one]
    simp only [not_forall, not_le]
  · have hsame : ∀ t ∈ S, (keccak256 t == keccak256 s) = decide (t = s) := fun t ht => by
      rw [beq_eq_decide]
      exact decide_eq_decide.mpr ⟨hhash t ht, congrArg keccak256⟩
    exact ⟨indexOf_findsFirst hsame, removeStorage_removesOne _ hsame⟩

/-- The hashes of three strings. -/
def exampleHash (s : String) : BitVec 256 :=
  if s = "a" then 0x3ac225168df54212a25c1c01fd35bebfea408fdac2e31ddd6f80a4bbf9a5f1cb
  else if s = "b" then 0xb5553de315e0edf504d9150af82dafa5c4667fa618ed0a6f19c69b41166c5510
  else 0x0b42b6393c1f53060fe3ddbfcd7aadcca894465a5a438f69c87d790b2299b9b2

/-- The last string takes the place of the first, and an address that occurs twice is found. -/
theorem array_utilities_example :
    (∃ found, AddressArrayLoops.hasDuplicate [3, 4, 3] = .ok found ∧
      (found = true ↔ ∃ b : Address, 1 < [3, 4, 3].count b)) ∧
    StringArrayLoops.removeStorage exampleHash ["a", "b", "c"] "a" = .ok ["c", "b"] ∧
      ArrayLoops.RemovesOne ["a", "b", "c"] "a" "String not in array."
        (StringArrayLoops.removeStorage exampleHash ["a", "b", "c"] "a") := by
  have hutilities := array_utilities [3, 4, 3] 3
  have hhash : ∀ t ∈ ["a", "b", "c"], exampleHash t = exampleHash "a" → t = "a" := by
    decide +kernel
  exact ⟨hutilities.2.2.2.2.1 (List.cons_ne_nil _ _), by decide +kernel,
    (hutilities.2.2.2.2.2.2 exampleHash _ _ hhash).2⟩

end IndexProtocol
