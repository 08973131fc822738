import IndexProtocol.Evm.Checked
import Mathlib.Data.List.Induction

/-! Bytes, and the numbers they write from the most significant byte down. -/
namespace IndexProtocol.Evm

abbrev Bytes := List UInt8

namespace Bytes

/-- The number that bytes write. -/
def toNat (bytes : Bytes) : Nat := bytes.foldl (fun n byte => 256 * n + byte.toNat) 0

/-- A number in so many bytes, of which more significant ones are lost. -/
def ofNat : (width n : Nat) → Bytes
  | 0, _ => []
  | width + 1, n => ofNat width (n / 256) ++ [UInt8.ofNat n]

/-- The bytes of an ASCII text. -/
def ofAscii (s : String) : Bytes := s.toList.map fun c => UInt8.ofNat c.toNat

/-- What `length` bytes from an offset on are. -/
def slice (bytes : Bytes) (offset length : Nat) : Bytes := (bytes.drop offset).take length

@[simp] theorem length_ofNat (width n : Nat) : (ofNat width n).length = width := by
  induction width generalizing n with
  | zero => rfl
  | succ width ih => rw [ofNat, List.length_append, ih, List.length_singleton]

theorem toNat_concat (bytes : Bytes) (byte : UInt8) :
    toNat (bytes ++ [byte]) = 256 * toNat bytes + byte.toNat := by
  rw [toNat, List.foldl_append]
  rfl

theorem toNat_ofNat_of_lt {width n : Nat} (h : n < 256 ^ width) : toNat (ofNat width n) = n := by
  induction width generalizing n with
  | zero =>
    rw [Nat.pow_zero, Nat.lt_one_iff] at h
    exact h.symm
  | succ width ih =>
    have hlow : (UInt8.ofNat n).toNat = n % 256 := UInt8.toNat_ofNat'
    have hhigh : n / 256 < 256 ^ width := by
      rw [Nat.pow_succ] at h
      exact Nat.div_lt_of_lt_mul (by omega)
    rw [ofNat, toNat_concat, ih hhigh, hlow]
    exact Nat.div_add_mod n 256

/-- A part is found where the parts before it end. -/
theorem slice_append {before part after : Bytes} {offset length : Nat}
    (hoffset : before.length = offset) (hlength : part.length = length) :
    slice (before ++ (part ++ after)) offset length = part := by
  rw [slice, ← hoffset, List.drop_left, ← hlength, List.take_left]

theorem slice_start {part after : Bytes} {length : Nat} (hlength : part.length = length) :
    slice (part ++ after) 0 length = part := by
  rw [slice, List.drop_zero, ← hlength, List.take_left]

end Bytes

end IndexProtocol.Evm
