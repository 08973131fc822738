import IndexProtocol.Evm.Bytes

/-! Values in words of 32 bytes, as contracts encode them for each other.

A static value is one word. An array or a string of bytes is elsewhere in the data: its word is
an offset, where its length stands before its elements. The decoder reverts on data that is too
short, and on a word that is no value of its type. -/
namespace IndexProtocol.Evm.Abi
open Bytes

def encodeWord (n : Nat) : Bytes := Bytes.ofNat 32 n

def encodeWords (words : List Nat) : Bytes := words.flatMap encodeWord

def encodeBool (b : Bool) : Nat := if b then 1 else 0

/-- The word at an offset. -/
def word (data : Bytes) (offset : Nat) : Nat := toNat (slice data offset 32)

/-- A word that is a truth value. -/
def decodeBool (n : Nat) : Result Bool := do
  require (n < 2) ""
  pure (decide (n = 1))

/-- A word that is a number of so many bits. -/
def decodeBits (width n : Nat) : Result (BitVec width) := do
  require (n < 2 ^ width) ""
  pure (BitVec.ofNat width n)

/-- The static part of the data, in which each value has its words. -/
def decodeHead (data : Bytes) (words : Nat) : Result Unit := require (32 * words ≤ data.length) ""

/-- Where a value is that is not in the static part. -/
def decodeOffset (data : Bytes) (offset : Nat) : Result Nat :=
  BitVec.toNat <$> decodeBits 64 (word data offset)

/-- The length at an offset, of a value with so many bytes for each element. -/
def decodeLength (size : Nat) (data : Bytes) (offset : Nat) : Result Nat := do
  require (offset + 31 < data.length) ""
  let length ← decodeBits 64 (word data offset)
  require (offset + 32 + size * length.toNat ≤ data.length) ""
  pure length.toNat

def decodeArray {α : Type} (size : Nat) (decode : Nat → Result α) (data : Bytes) (offset : Nat) :
    Result (List α) := do
  let length ← decodeLength size data offset
  (List.range length).mapM fun i => decode (offset + 32 + size * i)

def decodeBytes (data : Bytes) (offset : Nat) : Result Bytes := do
  let length ← decodeLength 1 data offset
  pure (slice data (offset + 32) length)

@[simp] theorem decodeBool_encodeBool (b : Bool) : decodeBool (encodeBool b) = .ok b := by
  cases b <;> rfl

theorem decodeLength_lt {size offset length : Nat} {data : Bytes}
    (h : decodeLength size data offset = .ok length) : length < 2 ^ 64 := by
  simp only [decodeLength, bind_eq_ok, pure_eq_ok] at h
  obtain ⟨_, _, bits, _, _, _, rfl⟩ := h
  exact bits.isLt

/-- An array has fewer elements than a length can say. -/
theorem length_decodeArray_lt {α : Type} {size offset : Nat} {decode : Nat → Result α}
    {data : Bytes} {elements : List α} (h : decodeArray size decode data offset = .ok elements) :
    elements.length < 2 ^ 64 := by
  simp only [decodeArray, bind_eq_ok, mapM_eq_ok] at h
  obtain ⟨length, hlength, helements⟩ := h
  rw [← helements.length_eq, List.length_range]
  exact decodeLength_lt hlength

theorem uintBound_eq : uintBound = 256 ^ 32 := by decide

@[simp] theorem length_encodeWord (n : Nat) : (encodeWord n).length = 32 := length_ofNat 32 n

theorem length_encodeWords (words : List Nat) : (encodeWords words).length = 32 * words.length := by
  induction words with
  | nil => rfl
  | cons w rest ih =>
    rw [encodeWords, List.flatMap_cons, List.length_append, length_encodeWord, List.length_cons]
    rw [encodeWords] at ih
    omega

/-- Each word is read back at its place. -/
theorem word_encodeWords {words : List Nat} (hwords : ∀ n ∈ words, n < uintBound)
    (i : Fin words.length) : word (encodeWords words) (32 * i) = words.get i := by
  have hsplit : encodeWords words = encodeWords (words.take i) ++
      (encodeWord (words.get i) ++ encodeWords (words.drop (i + 1))) := by
    rw [encodeWords, encodeWords, encodeWords, ← List.flatMap_cons, ← List.flatMap_append,
      List.get_eq_getElem, ← List.drop_eq_getElem_cons i.isLt, List.take_append_drop]
  have hbefore : (encodeWords (words.take i)).length = 32 * i := by
    rw [length_encodeWords, List.length_take, min_eq_left i.isLt.le]
  rw [word, hsplit, slice_append hbefore (length_encodeWord _)]
  exact toNat_ofNat_of_lt (uintBound_eq ▸ hwords _ (List.get_mem words i))

end IndexProtocol.Evm.Abi
