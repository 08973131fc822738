import IndexProtocol.ArrayUtils
import Mathlib.Logic.Function.Basic

/-! Lists of addresses with a mapping that flags them.

The contracts keep who may do something as an array, to enumerate it, and as a
mapping, to ask it. Each list is changed by the functions of its contract only,
which look at the mapping first. A list is `Consistent` when it has what the
mapping flags once, and nothing else. An array that a list starts as is the one
way to make it inconsistent (`consistent_load_iff`). Where a status is set for an
address, the list `Tracks` the statuses set so far. -/
namespace IndexProtocol
open Evm

structure Registry where
  list : List Address
  flag : Address → Bool

namespace Registry

def empty : Registry := ⟨[], fun _ => false⟩

section Changes
variable (r : Registry)

/-- Pushes an address and flags it. -/
def push (a : Address) : Registry := ⟨r.list ++ [a], Function.update r.flag a true⟩

/-- Pushes what is not flagged. -/
def add (existing : String) (a : Address) : Result Registry := do
  require (r.flag a = false) existing
  pure (r.push a)

/-- Takes an address out of the array, with one of the functions that do, and out of the mapping. -/
def drop (erase : List Address → Address → Result (List Address)) (a : Address) :
    Result Registry := do
  let list ← erase r.list a
  pure ⟨list, Function.update r.flag a false⟩

/-- Drops what is flagged. -/
def remove (erase : List Address → Address → Result (List Address)) (missing : String)
    (a : Address) : Result Registry := do
  require (r.flag a = true) missing
  r.drop erase a

end Changes

/-- One step of the loops that start a registry. -/
def mark (flag : Address → Bool) (a : Address) : Result (Address → Bool) := do
  require (a ≠ 0) "Zero address submitted."
  pure (Function.update flag a true)

/-- Pushes what is neither flagged nor zero. -/
def addNonzero (r : Registry) (existing : String) (a : Address) : Result Registry := do
  require (r.flag a = false) existing
  let flag ← mark r.flag a
  pure ⟨r.list ++ [a], flag⟩

/-- The array becomes the list, and each of its elements is flagged. -/
def load (r : Registry) (as : List Address) : Result Registry := do
  let flag ← runs mark r.flag as
  pure ⟨as, flag⟩

/-- The array follows a status that is about to be set. -/
def updateHistory (list : List Address) (a : Address) (status : Bool) : Result (List Address) :=
  if status = true ∧ AddressArrayUtils.contains list a = false then pure (list ++ [a])
  else if status = false ∧ AddressArrayUtils.contains list a = true then
    AddressArrayUtils.removeStorage list a
  else pure list

def setStatus (r : Registry) (entry : Address × Bool) : Result Registry := do
  let list ← updateHistory r.list entry.1 entry.2
  pure ⟨list, Function.update r.flag entry.1 entry.2⟩

/-- Everything listed loses its flag. -/
def clearFlags (r : Registry) : Address → Bool :=
  r.list.foldl (fun flag a => Function.update flag a false) r.flag

/-- What is flagged is listed once, and nothing else is listed. -/
def Consistent (r : Registry) : Prop :=
  ∀ a, r.list.count a = if r.flag a = true then 1 else 0

/-- Neither flagged nor listed. -/
def Without (r : Registry) (a : Address) : Prop := r.flag a = false ∧ a ∉ r.list

/-- A function that takes one occurrence out of an array. -/
def Erases (erase : List Address → Address → Result (List Address)) : Prop :=
  ∀ {A A' a}, erase A a = .ok A' → a ∈ A ∧ A'.Perm (A.erase a)

variable {r r' : Registry} {a : Address}

theorem erases_remove : Erases AddressArrayUtils.remove := by
  intro A A' a h
  obtain ⟨ha, rfl⟩ := ArrayUtils.remove_eq_ok h
  exact ⟨ha, .refl _⟩

theorem erases_removeStorage : Erases AddressArrayUtils.removeStorage :=
  ArrayUtils.removeStorage_eq_ok

theorem consistent_iff_lists : r.Consistent ↔ Lists r.list (r.flag · = true) := by
  constructor
  · intro h
    refine ⟨List.nodup_iff_count_le_one.mpr fun a => ?_, fun a => ?_⟩
    · rw [h a]
      split <;> decide
    · rw [← List.count_pos_iff, h a]
      split <;> simp_all
  · intro h a
    split
    · exact List.count_eq_one_of_mem h.nodup ((h.mem_iff a).mpr ‹_›)
    · exact List.count_eq_zero_of_not_mem (mt (h.mem_iff a).mp ‹_›)

theorem empty_consistent : empty.Consistent := fun _ => rfl

/-- Flagged exactly when listed once. -/
theorem Consistent.flag_iff (h : r.Consistent) (a : Address) :
    r.flag a = true ↔ r.list.count a = 1 := by
  rw [h a]
  split <;> simp_all

theorem Consistent.mem_iff (h : r.Consistent) (a : Address) : a ∈ r.list ↔ r.flag a = true :=
  (consistent_iff_lists.mp h).mem_iff a

theorem Consistent.push (h : r.Consistent) (ha : r.flag a = false) : (r.push a).Consistent := by
  rw [consistent_iff_lists] at h ⊢
  refine h.push (fun b hb => ?_) (by simp [ha]) (Function.update_self ..)
  show Function.update r.flag a true b = true ↔ _
  rw [Function.update_of_ne hb]

theorem Consistent.add {existing : String} (h : r.Consistent)
    (hadd : r.add existing a = .ok r') : r'.Consistent := by
  simp only [Registry.add, bind_eq_ok, require_eq_ok, exists_const, pure_eq_ok] at hadd
  obtain ⟨ha, rfl⟩ := hadd
  exact h.push ha

theorem Consistent.addNonzero {existing : String} (h : r.Consistent)
    (hadd : r.addNonzero existing a = .ok r') : r'.Consistent := by
  simp only [Registry.addNonzero, mark, bind_eq_ok, require_eq_ok, exists_const, pure_eq_ok] at hadd
  obtain ⟨ha, _, ⟨_, rfl⟩, rfl⟩ := hadd
  exact h.push ha

theorem Consistent.drop {erase : List Address → Address → Result (List Address)}
    (herase : Erases erase) (h : r.Consistent) (hdrop : r.drop erase a = .ok r') :
    r'.Consistent ∧ r'.Without a := by
  simp only [Registry.drop, bind_eq_ok, pure_eq_ok] at hdrop
  obtain ⟨list, hlist, rfl⟩ := hdrop
  have hoff : Function.update r.flag a false a = false := Function.update_self ..
  have h' : Consistent ⟨list, Function.update r.flag a false⟩ := by
    rw [consistent_iff_lists] at h ⊢
    refine h.remove (herase hlist).2 (fun b hb => ?_) (by simp)
    show Function.update r.flag a false b = true ↔ _
    rw [Function.update_of_ne hb]
  refine ⟨h', hoff, fun ha => ?_⟩
  have hflag := (h'.mem_iff a).mp ha
  exact absurd (hoff.symm.trans hflag) Bool.false_ne_true

theorem Consistent.remove {erase : List Address → Address → Result (List Address)}
    {missing : String} (herase : Erases erase) (h : r.Consistent)
    (hremove : r.remove erase missing a = .ok r') : r'.Consistent ∧ r'.Without a := by
  simp only [Registry.remove, bind_eq_ok, require_eq_ok, exists_const] at hremove
  exact h.drop herase hremove.2

/-! ### Arrays of changes -/

theorem Consistent.without_iff (h : r.Consistent) : r.Without a ↔ r.flag a = false := by
  refine ⟨fun hwithout => hwithout.1, fun ha => ⟨ha, ?_⟩⟩
  rw [h.mem_iff, ha]
  exact Bool.false_ne_true

theorem Consistent.adds {existing : String} {as : List Address} (h : r.Consistent)
    (hadds : runs (·.add existing) r as = .ok r') : r'.Consistent :=
  runs_invariant Consistent (fun _ _ _ h hadd => h.add hadd) h hadds

theorem Consistent.removes {erase : List Address → Address → Result (List Address)}
    {missing : String} {as : List Address} (herase : Erases erase) (h : r.Consistent)
    (hremoves : runs (·.remove erase missing) r as = .ok r') :
    r'.Consistent ∧ (∀ a ∈ as, r'.Without a) ∧ ∀ a, r.Without a → r'.Without a := by
  induction as generalizing r with
  | nil =>
    obtain rfl : r = r' := by simpa using hremoves
    exact ⟨h, fun a ha => absurd ha List.not_mem_nil, fun _ ha => ha⟩
  | cons a rest ih =>
    obtain ⟨t, ht, hrest⟩ := (runs_cons_eq_ok _).mp hremoves
    obtain ⟨hconsistent, ha⟩ := h.remove herase ht
    obtain ⟨hconsistent', hgone, hkeep⟩ := ih hconsistent hrest
    refine ⟨hconsistent', fun b hb => ?_, fun b hb => hkeep b (hconsistent.without_iff.mpr ?_)⟩
    · rcases List.mem_cons.mp hb with rfl | hb
      · exact hkeep _ ha
      · exact hgone b hb
    · simp only [Registry.remove, Registry.drop, bind_eq_ok, pure_eq_ok] at ht
      obtain ⟨_, _, _, _, rfl⟩ := ht
      show Function.update r.flag a false b = false
      by_cases hba : b = a
      · rw [hba, Function.update_self]
      · rw [Function.update_of_ne hba, hb.1]

/-! ### Statuses that are set -/

/-- The status set last, if any was. -/
def lastStatus (log : List (Address × Bool)) (a : Address) : Bool :=
  log.foldl (fun status entry => if entry.1 = a then entry.2 else status) false

/-- The list has what the last statuses say. -/
structure Tracks (r : Registry) (log : List (Address × Bool)) : Prop where
  consistent : r.Consistent
  last : ∀ a, r.flag a = lastStatus log a

theorem empty_tracks : empty.Tracks [] := ⟨empty_consistent, fun _ => rfl⟩

theorem updateHistory_lists {list list' : List Address} {p q : Address → Prop} {status : Bool}
    (h : Lists list p) (hoff : ∀ b, b ≠ a → (q b ↔ p b)) (hq : q a ↔ status = true)
    (hupdate : updateHistory list a status = .ok list') : Lists list' q := by
  have hmem : AddressArrayUtils.contains list a = true ↔ p a :=
    (ArrayUtils.contains_eq_true list a).trans (h.mem_iff a)
  unfold updateHistory at hupdate
  split_ifs at hupdate with hpush hremove
  · obtain rfl := pure_eq_ok.mp hupdate
    refine h.push hoff (fun hp => ?_) (hq.mpr hpush.1)
    exact absurd (hpush.2.symm.trans (hmem.mpr hp)) Bool.false_ne_true
  · refine h.remove (erases_removeStorage hupdate).2 hoff (fun hqa => ?_)
    exact absurd (hremove.1.symm.trans (hq.mp hqa)) Bool.false_ne_true
  · obtain rfl := pure_eq_ok.mp hupdate
    refine h.keep hoff ?_
    rw [hq, ← hmem]
    cases status <;> simp_all

/-- Setting one status. -/
theorem Tracks.setStatus {log : List (Address × Bool)} {entry : Address × Bool} (h : r.Tracks log)
    (hset : r.setStatus entry = .ok r') : r'.Tracks (log ++ [entry]) := by
  simp only [Registry.setStatus, bind_eq_ok, pure_eq_ok] at hset
  obtain ⟨list, hlist, rfl⟩ := hset
  constructor
  · rw [consistent_iff_lists]
    refine updateHistory_lists (consistent_iff_lists.mp h.consistent) (fun b hb => ?_) ?_ hlist
    · show Function.update r.flag entry.1 entry.2 b = true ↔ _
      rw [Function.update_of_ne hb]
    · show Function.update r.flag entry.1 entry.2 entry.1 = true ↔ _
      rw [Function.update_self]
  · intro a
    rw [lastStatus, List.foldl_append]
    show Function.update r.flag entry.1 entry.2 a =
      if entry.1 = a then entry.2 else lastStatus log a
    by_cases ha : entry.1 = a
    · rw [if_pos ha, ha, Function.update_self]
    · rw [if_neg ha, Function.update_of_ne (Ne.symm ha), h.last a]

theorem Tracks.setStatuses {log entries : List (Address × Bool)} (h : r.Tracks log)
    (hset : runs Registry.setStatus r entries = .ok r') : r'.Tracks (log ++ entries) := by
  induction entries generalizing r log with
  | nil =>
    obtain rfl : r = r' := by simpa using hset
    rwa [List.append_nil]
  | cons entry rest ih =>
    obtain ⟨t, ht, hrest⟩ := (runs_cons_eq_ok _).mp hset
    have := ih (h.setStatus ht) hrest
    rwa [List.append_assoc, List.singleton_append] at this

theorem foldl_unflag (as : List Address) (flag : Address → Bool) (a : Address) :
    as.foldl (fun flag a => Function.update flag a false) flag a = true ↔
      flag a = true ∧ a ∉ as := by
  induction as generalizing flag with
  | nil => simp
  | cons b rest ih =>
    rw [List.foldl_cons, ih, List.mem_cons, not_or]
    by_cases hab : a = b
    · simp [hab]
    · rw [Function.update_of_ne hab]
      simp [hab]

/-- Taking the flags of what is listed takes all flags. -/
theorem Consistent.clearFlags (h : r.Consistent) : r.clearFlags = fun _ => false := by
  funext a
  rw [← Bool.not_eq_true]
  intro hflag
  obtain ⟨ha, hnot⟩ := (foldl_unflag r.list r.flag a).mp hflag
  exact hnot ((h.mem_iff a).mpr ha)

/-- Nothing is left of a list whose flags were taken. -/
theorem Consistent.cleared (h : r.Consistent) : Registry.mk [] r.clearFlags = empty :=
  congrArg (Registry.mk []) h.clearFlags

theorem Consistent.eq_empty (h : r.Consistent) (hnil : r.list = []) : r = empty := by
  have hcleared := h.cleared
  rwa [Registry.clearFlags, hnil, List.foldl_nil, ← hnil] at hcleared

/-! ### Arrays that lists start as -/

theorem marked {flag flag' : Address → Bool} {as : List Address}
    (h : runs mark flag as = .ok flag') :
    ∀ a, flag' a = true ↔ a ∈ as ∨ flag a = true := by
  induction as generalizing flag with
  | nil =>
    obtain rfl : flag = flag' := by simpa using h
    exact fun a => by simp
  | cons b rest ih =>
    obtain ⟨_, hb, hrest⟩ := (runs_cons_eq_ok mark).mp h
    simp only [mark, bind_eq_ok, require_eq_ok, exists_const, pure_eq_ok] at hb
    obtain ⟨_, rfl⟩ := hb
    intro a
    rw [ih hrest a, List.mem_cons]
    by_cases hab : a = b
    · simp [hab]
    · rw [Function.update_of_ne hab]
      simp [hab]

/-- An array starts a consistent list exactly when it repeats nothing. -/
theorem consistent_load_iff {as : List Address} (hr : ∀ a, r.flag a = false)
    (h : r.load as = .ok r') : r'.Consistent ↔ as.Nodup := by
  simp only [load, bind_eq_ok, pure_eq_ok] at h
  obtain ⟨flag, hflag, rfl⟩ := h
  have hmarked : ∀ a, flag a = true ↔ a ∈ as := by
    intro a
    rw [marked hflag a, hr a]
    simp
  rw [consistent_iff_lists]
  exact ⟨fun h => h.nodup, fun h => ⟨h, fun a => (hmarked a).symm⟩⟩

end Registry

end IndexProtocol
