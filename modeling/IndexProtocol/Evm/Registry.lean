import Mathlib.Data.List.Basic
import Mathlib.Data.List.Nodup
import Mathlib.Data.List.Perm.Basic

/-! Arrays that mirror a predicate.

Contracts keep the set of elements with some property twice: as a mapping, to
test it, and as an array, to enumerate it. `Lists l p` says that the two agree:
the array lists exactly the elements with the property, each once. Pushing a new
element and removing a listed one keep the agreement, whatever the order in
which removal leaves the rest. -/
namespace IndexProtocol.Evm

/-- The array lists exactly the elements with the property, each once. -/
structure Lists {α : Type} (l : List α) (p : α → Prop) : Prop where
  nodup : l.Nodup
  mem_iff : ∀ a, a ∈ l ↔ p a

namespace Lists
variable {α : Type} {l l' : List α} {p q : α → Prop} {a : α}

theorem of_iff (h : Lists l p) (hpq : ∀ b, q b ↔ p b) : Lists l q :=
  ⟨h.nodup, fun b => (h.mem_iff b).trans (hpq b).symm⟩

/-- The property changed at most at `a`, and there not either. -/
theorem keep (h : Lists l p) (hoff : ∀ b, b ≠ a → (q b ↔ p b)) (ha : q a ↔ p a) : Lists l q := by
  refine h.of_iff fun b => ?_
  by_cases hb : b = a
  · rwa [hb]
  · exact hoff b hb

/-- Pushing the one element that gained the property. -/
theorem push (h : Lists l p) (hoff : ∀ b, b ≠ a → (q b ↔ p b)) (hp : ¬p a) (hq : q a) :
    Lists (l ++ [a]) q := by
  refine ⟨?_, fun b => ?_⟩
  · rw [List.nodup_append]
    refine ⟨h.nodup, List.nodup_singleton a, fun b hb c hc => ?_⟩
    rintro rfl
    obtain rfl := List.mem_singleton.mp hc
    exact hp ((h.mem_iff _).mp hb)
  · rw [List.mem_append, List.mem_singleton, h.mem_iff]
    by_cases hb : b = a
    · simp [hb, hq]
    · simp [hb, hoff b hb]

/-- Removing the one element that lost the property, in whatever order the others are left. -/
theorem remove [DecidableEq α] (h : Lists l p) (hl : l'.Perm (l.erase a))
    (hoff : ∀ b, b ≠ a → (q b ↔ p b)) (hq : ¬q a) : Lists l' q := by
  refine ⟨hl.nodup_iff.mpr (h.nodup.erase a), fun b => ?_⟩
  rw [hl.mem_iff, h.nodup.mem_erase_iff, h.mem_iff]
  by_cases hb : b = a
  · simp [hb, hq]
  · simp [hb, hoff b hb]

theorem eq_nil_iff (h : Lists l p) : l = [] ↔ ∀ b, ¬p b := by
  rw [List.eq_nil_iff_forall_not_mem]
  exact forall_congr' fun b => not_congr (h.mem_iff b)

end Lists

end IndexProtocol.Evm
