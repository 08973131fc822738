import Mathlib.Data.Nat.Bitwise
import Mathlib.Logic.Function.Basic

/-! Sets of numbers, as the bits of words.

A number is one bit of one word: its quotient by the width selects the word, its remainder the
bit. Masks read and write it. What `insert` leaves is the set with one element more
(`contains_insert`), and words stay within their width (`insert_lt`). -/
namespace IndexProtocol

/-- Words by their index. -/
abbrev Bitmap := ℕ → ℕ

namespace Bitmap
variable (width : ℕ) (words : Bitmap) (i : ℕ)

def empty : Bitmap := fun _ => 0

/-- The bit of a number, in its word. -/
def mask : ℕ := 1 <<< (i % width)

def contains : Bool := words (i / width) &&& mask width i == mask width i

def insert : Bitmap := Function.update words (i / width) (words (i / width) ||| mask width i)

variable {width words i} {j : ℕ}

theorem testBit_mask (bit : ℕ) : (mask width i).testBit bit = decide (i % width = bit) := by
  rw [mask, Nat.shiftLeft_eq, Nat.one_mul, Nat.testBit_two_pow]

theorem contains_iff :
    contains width words i = true ↔ (words (i / width)).testBit (i % width) = true := by
  rw [contains, beq_iff_eq, mask, Nat.shiftLeft_eq, Nat.one_mul, Nat.and_two_pow]
  cases (words (i / width)).testBit (i % width) with
  | true => simp
  | false => simpa using (Nat.two_pow_pos (i % width)).ne

theorem not_contains_empty : contains width empty i = false := by
  rw [← Bool.not_eq_true, contains_iff, empty, Nat.zero_testBit]
  exact Bool.false_ne_true

theorem contains_insert :
    contains width (insert width words i) j = true ↔ j = i ∨ contains width words j = true := by
  rw [contains_iff, contains_iff, insert]
  by_cases hword : j / width = i / width
  · rw [hword, Function.update_self, Nat.testBit_or, Bool.or_eq_true, testBit_mask,
      decide_eq_true_iff, or_comm]
    -- In one word only the remainders can differ.
    have hbit : i % width = j % width ↔ j = i := by
      constructor
      · intro hmod
        rw [← Nat.div_add_mod j width, ← Nat.div_add_mod i width, hword, hmod]
      · exact fun heq => heq ▸ rfl
    rw [hbit]
  · rw [Function.update_of_ne hword]
    exact (or_iff_right fun heq : j = i => hword (heq ▸ rfl)).symm

/-- No bit is set beyond the width. -/
theorem insert_lt (hwidth : 0 < width) (h : ∀ k, words k < 2 ^ width) (k : ℕ) :
    insert width words i k < 2 ^ width := by
  rw [insert]
  by_cases hk : k = i / width
  · rw [hk, Function.update_self]
    refine Nat.or_lt_two_pow (h _) ?_
    rw [mask, Nat.shiftLeft_eq, Nat.one_mul]
    exact Nat.pow_lt_pow_right (by decide) (Nat.mod_lt i hwidth)
  · rw [Function.update_of_ne hk]
    exact h k

end Bitmap

end IndexProtocol
