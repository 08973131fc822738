import IndexProtocol.Auction.AncillaryData
import IndexProtocol.Evm.Checked

/-! Claims read back.

The digits of half a word, spread over the bytes of a word, are its hexadecimal digits,
and the sum that makes them symbols makes each of them its own. So a `bytes32` is
written as its 64 digits, and what is written reads back. Since no value and no key has
a comma or a colon in it, the text that any keys and values were appended to is a list
from which a reader takes these keys and values again, and no two claims are the same
text. -/
namespace IndexProtocol.AncillaryData
open Evm Slots NumberText

/-! ### Half a word -/

/-- A hexadecimal digit, in lower case. -/
def hexSymbol (d : Nat) : Nat := if d < 10 then 48 + d else 87 + d

section Halves
variable {w s t n mask x : Nat} {ds : List Nat}

theorem interleave_eq (hs : s = 4 * w) (ht : t = 2 * w) (hn : ds.length = n) (hword : s * n = 256)
    (hds : ∀ d ∈ ds, d < 2 ^ t)
    (hmask : Nat.ofDigits (2 ^ s) (List.replicate n (quarters w)) = mask) :
    interleave (Nat.ofDigits (2 ^ s) ds) w mask = Nat.ofDigits (2 ^ t) (spread w ds) := by
  subst hs ht
  have hshift : ∀ d ∈ ds, id d * 2 ^ w < 2 ^ (4 * w) := by
    intro d hd
    calc d * 2 ^ w < 2 ^ (2 * w) * 2 ^ w :=
          Nat.mul_lt_mul_of_pos_right (hds d hd) (Nat.two_pow_pos w)
      _ ≤ 2 ^ (4 * w) := by
        rw [← Nat.pow_add]
        exact Nat.pow_le_pow_right Nat.two_pos (by omega)
  have hfits : Nat.ofDigits (2 ^ (4 * w)) ds * 2 ^ w < uintBound := by
    have hlt := ofDigits_lt hshift hn
    rwa [← ofDigits_mul, List.map_id, hword] at hlt
  rw [interleave, Nat.mod_eq_of_lt hfits, ← hmask, ← hn, ← List.map_const', or_shift_and_mask hds]

/-- The digits of the lower half of a word, the least significant first. -/
def nibbles (x : Nat) : List Nat :=
  spread 4 (spread 8 (spread 16 (spread 32 (spread 64 [x % 2 ^ 128]))))

theorem length_nibbles : (nibbles x).length = 32 := by
  simp only [nibbles, length_spread, List.length_singleton]

theorem nibbles_lt : ∀ d ∈ nibbles x, d < 2 ^ 4 := by
  have hx : ∀ d ∈ [x % 2 ^ 128], d < 2 ^ (2 * 64) := by
    simpa using Nat.mod_lt x (Nat.two_pow_pos 128)
  exact spread_lt (spread_lt (spread_lt (spread_lt (spread_lt hx))))

theorem ofDigits_nibbles : Nat.ofDigits (2 ^ 4) (nibbles x) = x % 2 ^ 128 := by
  simp only [nibbles, ofDigits_spread, Nat.reduceMul, Nat.ofDigits_singleton]

/-- Every byte of the word has its digit. -/
theorem interleaved (x : Nat) :
    interleave (interleave (interleave (interleave (interleave
      (x &&& 0x00000000000000000000000000000000ffffffffffffffffffffffffffffffff)
      64 0x0000000000000000ffffffffffffffff0000000000000000ffffffffffffffff)
      32 0x00000000ffffffff00000000ffffffff00000000ffffffff00000000ffffffff)
      16 0x0000ffff0000ffff0000ffff0000ffff0000ffff0000ffff0000ffff0000ffff)
      8 0x00ff00ff00ff00ff00ff00ff00ff00ff00ff00ff00ff00ff00ff00ff00ff00ff)
      4 0x0f0f0f0f0f0f0f0f0f0f0f0f0f0f0f0f0f0f0f0f0f0f0f0f0f0f0f0f0f0f0f0f =
    Nat.ofDigits (2 ^ 8) (nibbles x) := by
  have hmask : x &&& 0x00000000000000000000000000000000ffffffffffffffffffffffffffffffff =
      Nat.ofDigits (2 ^ 256) [x % 2 ^ 128] := by
    rw [Nat.ofDigits_singleton, ← Nat.and_two_pow_sub_one_eq_mod]
  have h128 : ∀ d ∈ [x % 2 ^ 128], d < 2 ^ 128 := by
    simpa using Nat.mod_lt x (Nat.two_pow_pos 128)
  have h64 := spread_lt (w := 64) h128
  have h32 := spread_lt (w := 32) h64
  have h16 := spread_lt (w := 16) h32
  have h8 := spread_lt (w := 8) h16
  have hlength (w : Nat) {ds : List Nat} {n : Nat} (h : ds.length = n) :
      (spread w ds).length = 2 * n := length_spread.trans (congrArg _ h)
  have hone : [x % 2 ^ 128].length = 1 := rfl
  have htwo := hlength 64 hone
  have hfour := hlength 32 htwo
  have height := hlength 16 hfour
  have hsixteen := hlength 8 height
  rw [hmask, interleave_eq (s := 256) (t := 128) rfl rfl hone rfl h128 (by decide +kernel),
    interleave_eq (s := 128) (t := 64) rfl rfl htwo rfl h64 (by decide +kernel),
    interleave_eq (s := 64) (t := 32) rfl rfl hfour rfl h32 (by decide +kernel),
    interleave_eq (s := 32) (t := 16) rfl rfl height rfl h16 (by decide +kernel),
    interleave_eq (s := 16) (t := 8) rfl rfl hsixteen rfl h8 (by decide +kernel)]
  rfl

/-- One bit of every digit. -/
theorem nibbles_bit {c mask : Nat} (hc : 0 < c) (hlt : c < 2 ^ 8) (hdvd : ∀ d < 2 ^ 4, c ∣ d &&& c)
    (hmask : Nat.ofDigits (2 ^ 8) (List.replicate 32 c) = mask) :
    (Nat.ofDigits (2 ^ 8) (nibbles x) &&& mask) / c =
      Nat.ofDigits (2 ^ 8) ((nibbles x).map fun d => (d &&& c) / c) := by
  have hid : ∀ d ∈ nibbles x, id d < 2 ^ 8 := fun d hd => (nibbles_lt d hd).trans (by decide)
  have hand : Nat.ofDigits (2 ^ 8) (nibbles x) &&& mask =
      Nat.ofDigits (2 ^ 8) ((nibbles x).map fun d => id d &&& c) := by
    rw [← ofDigits_and hid fun _ _ => hlt, List.map_id, List.map_const', length_nibbles, hmask]
  rw [hand]
  exact ofDigits_div hc fun d hd => hdvd d (nibbles_lt d hd)

/-- What is added to a digit makes it the symbol. -/
theorem hexSymbol_eq : ∀ d < 2 ^ 4,
    d + ((d &&& 8) / 8 &&& ((d &&& 4) / 4 ||| (d &&& 2) / 2)) * 0x27 + 0x30 = hexSymbol d := by
  decide

theorem hexSymbol_lt : ∀ d < 2 ^ 4, hexSymbol d < 2 ^ 8 := by decide

theorem toUtf8Bytes32Bottom_eq (x : Nat) :
    toUtf8Bytes32Bottom x = Nat.ofDigits (2 ^ 8) ((nibbles x).map hexSymbol) := by
  have hbit (c : Nat) : ∀ d ∈ nibbles x, (d &&& c) / c < 2 ^ 8 := fun d hd =>
    ((Nat.div_le_self _ _).trans Nat.and_le_left).trans_lt ((nibbles_lt d hd).trans (by decide))
  have hsum : Nat.ofDigits (2 ^ 8) ((nibbles x).map hexSymbol) =
      Nat.ofDigits (2 ^ 8) (nibbles x) +
        Nat.ofDigits (2 ^ 8) ((nibbles x).map fun d =>
          (d &&& 8) / 8 &&& ((d &&& 4) / 4 ||| (d &&& 2) / 2)) * 0x27 +
        0x3030303030303030303030303030303030303030303030303030303030303030 := by
    have hthirty : Nat.ofDigits (2 ^ 8) ((nibbles x).map fun _ => 0x30) =
        0x3030303030303030303030303030303030303030303030303030303030303030 := by
      rw [List.map_const', length_nibbles]
      decide +kernel
    rw [List.map_congr_left fun d hd => (hexSymbol_eq d (nibbles_lt d hd)).symm, ← ofDigits_add,
      ← ofDigits_add, ← ofDigits_mul, hthirty, List.map_id']
  have hlt : Nat.ofDigits (2 ^ 8) ((nibbles x).map hexSymbol) < uintBound :=
    ofDigits_lt (fun d hd => hexSymbol_lt d (nibbles_lt d hd)) length_nibbles
  unfold toUtf8Bytes32Bottom
  dsimp only
  rw [interleaved, nibbles_bit (c := 8) (by decide) (by decide) (by decide) (by decide +kernel),
    nibbles_bit (c := 4) (by decide) (by decide) (by decide) (by decide +kernel),
    nibbles_bit (c := 2) (by decide) (by decide) (by decide) (by decide +kernel),
    ofDigits_or (hbit 4) (hbit 2),
    ofDigits_and (hbit 8) fun d hd => Nat.or_lt_two_pow (hbit 4 d hd) (hbit 2 d hd)]
  rw [hsum] at hlt ⊢
  have hproduct := (Nat.le_add_left _ _).trans_lt ((Nat.le_add_right _ _).trans_lt hlt)
  rw [Nat.mod_eq_of_lt hproduct, Nat.mod_eq_of_lt hlt]

end Halves

/-! ### Hexadecimal texts -/

def hexByte (d : Nat) : UInt8 := UInt8.ofNat (hexSymbol d)

/-- The digit of a symbol. -/
def hexValue (c : UInt8) : Nat := if c.toNat < 58 then c.toNat - 48 else c.toNat - 87

/-- A number in so many hexadecimal digits. -/
def hexText (length x : Nat) : Bytes := digitText 16 hexByte length x

theorem hexValue_hexByte : ∀ d < 16, hexValue (hexByte d) = d := by decide

section Hexadecimal
variable {x n : Nat}

/-- Bytes are digits to the base 256. -/
theorem ofNat_eq_digitText (width n : Nat) :
    Bytes.ofNat width n = digitText 256 UInt8.ofNat width n := by
  induction width generalizing n with
  | zero => rfl
  | succ width ih =>
    have hlast : UInt8.ofNat (n % 256) = UInt8.ofNat n := UInt8.toNat_inj.mp (by simp)
    rw [Bytes.ofNat, digitText, ih, hlast]

theorem bytes32_bottom (x : Nat) : bytes32 (toUtf8Bytes32Bottom x) = hexText 32 x := by
  have hsymbols : ∀ c ∈ (nibbles x).map hexSymbol, c < 256 := by
    intro c hc
    obtain ⟨d, hd, rfl⟩ := List.mem_map.mp hc
    exact hexSymbol_lt d (nibbles_lt d hd)
  have hlength : ((nibbles x).map hexSymbol).length = 32 := by
    rw [List.length_map, length_nibbles]
  have hvalue : x % 16 ^ 32 = Nat.ofDigits 16 (nibbles x) := ofDigits_nibbles.symm
  have hdigits : hexText 32 x = ((nibbles x).map hexByte).reverse := by
    rw [hexText, ← digitText_mod, hvalue]
    exact digitText_ofDigits nibbles_lt length_nibbles
  rw [bytes32, toUtf8Bytes32Bottom_eq, ofNat_eq_digitText, hdigits]
  exact (digitText_ofDigits hsymbols hlength).trans (by rw [List.map_map]; rfl)

/-- A `bytes32` is written as its 64 digits. -/
theorem toUtf8Bytes_eq (x : Nat) : toUtf8Bytes x = hexText 64 x := by
  have hsplit : hexText (32 + 32) x = hexText 32 (x / 16 ^ 32) ++ hexText 32 x := digitText_add
  rw [toUtf8Bytes, bytes32_bottom, bytes32_bottom]
  exact hsplit.symm

/-- An address is written as its 40 digits. -/
theorem toUtf8BytesAddress_eq (x : BitVec 160) : toUtf8BytesAddress x = hexText 40 x.toNat := by
  have hhigh : bytes20 x / 2 ^ 128 = x.toNat / 16 ^ 8 := by rw [bytes20]; omega
  have hlow : bytes20 x / 16 ^ 24 = x.toNat := by rw [bytes20]; omega
  have hsplit : hexText (32 + 8) x.toNat = hexText 32 (x.toNat / 16 ^ 8) ++ hexText 8 x.toNat :=
    digitText_add
  have htake : (hexText (8 + 24) (bytes20 x)).take 8 = hexText 8 (bytes20 x / 16 ^ 24) :=
    take_digitText
  rw [toUtf8BytesAddress, bytes32_bottom, bytes32_bottom, hhigh]
  rw [hlow] at htake
  exact (congrArg _ htake).trans hsplit.symm

theorem readText_hexText (hx : x < 16 ^ n) : readText 16 hexValue (hexText n x) = x :=
  readText_digitText hexValue_hexByte hx

/-- **Words in hexadecimal.** The words of interleaved bits are the lower case digits of a `bytes32`,
all 64 of them, and the 40 of an address, and each text reads back. -/
theorem toUtf8_hexadecimal (word : BitVec 256) (a : BitVec 160) :
    toUtf8Bytes word.toNat = hexText 64 word.toNat ∧
      readText 16 hexValue (toUtf8Bytes word.toNat) = word.toNat ∧
      toUtf8BytesAddress a = hexText 40 a.toNat ∧
      readText 16 hexValue (toUtf8BytesAddress a) = a.toNat := by
  refine ⟨toUtf8Bytes_eq _, ?_, toUtf8BytesAddress_eq a, ?_⟩
  · rw [toUtf8Bytes_eq]
    exact readText_hexText (word.isLt.trans_le (show 2 ^ 256 ≤ 16 ^ 64 by decide))
  · rw [toUtf8BytesAddress_eq]
    exact readText_hexText (a.isLt.trans_le (show 2 ^ 160 ≤ 16 ^ 40 by decide))

theorem hexByte_plain :
    ∀ d < 16, hexByte d ≠ comma ∧ hexByte d ≠ colon := by decide

theorem hexText_plain (n x : Nat) : ∀ c ∈ hexText n x, c ≠ comma ∧ c ≠ colon := by
  intro c hc
  obtain ⟨d, hd, rfl⟩ := mem_digitText (by decide) hc
  exact hexByte_plain d hd

end Hexadecimal

/-! ### Decimal texts -/

section Decimal

def decimalByte (d : Nat) : UInt8 := UInt8.ofNat (48 + d)

def decimalValue (c : UInt8) : Nat := c.toNat - 48

/-- How many digits a number has, at least one. -/
def decimalLength (x : Nat) : Nat := if x < 10 then 1 else decimalLength (x / 10) + 1

def decimalText (x : Nat) : Bytes := digitText 10 decimalByte (decimalLength x) x

theorem countDigits_eq {x : Nat} (hx : x ≠ 0) (len : Nat) :
    countDigits x len = len + decimalLength x := by
  fun_induction decimalLength x generalizing len with
  | case1 x hlt =>
    rw [countDigits, if_neg hx, Nat.div_eq_of_lt hlt, countDigits, if_pos rfl]
  | case2 x hge ih =>
    rw [countDigits, if_neg hx, ih (by omega)]
    omega

theorem decimalText_of_lt {x : Nat} (hx : x < 10) : decimalText x = [decimalByte x] := by
  rw [decimalText, decimalLength, if_pos hx, digitText, digitText, Nat.mod_eq_of_lt hx,
    List.nil_append]

theorem decimalText_of_le {x : Nat} (hx : ¬x < 10) :
    decimalText x = decimalText (x / 10) ++ [decimalByte (x % 10)] := by
  rw [decimalText, decimalLength, if_neg hx, digitText, decimalText]

/-- One round of the loop, at the last of what is blank. -/
theorem writeDigits_step {x : Nat} (hx : x ≠ 0) (blank rest : Bytes) (b : UInt8)
    (hfits : blank.length + 1 < uintBound) :
    writeDigits (blank ++ b :: rest) (blank.length + 1) x =
      writeDigits (blank ++ decimalByte (x % 10) :: rest) blank.length (x / 10) := by
  have hk : (blank.length + 1 + uintBound - 1) % uintBound = blank.length := by
    rw [show blank.length + 1 + uintBound - 1 = blank.length + uintBound by omega,
      Nat.add_mod_right, Nat.mod_eq_of_lt (by omega)]
  have hdigit : (48 + (x - x / 10 * 10) % 2 ^ 8) % 2 ^ 8 = 48 + x % 10 := by omega
  rw [writeDigits, if_neg hx, hk, hdigit]
  dsimp only
  rw [write_append, ok_bind]
  rfl

/-- The loop fills what is before the digits that it has written. -/
theorem writeDigits_eq {x : Nat} (hx : x ≠ 0) (blank rest : Bytes)
    (hlength : blank.length = decimalLength x) (hfits : blank.length < uintBound) :
    writeDigits (blank ++ rest) blank.length x = .ok (decimalText x ++ rest) := by
  fun_induction decimalLength x generalizing blank rest with
  | case1 x hlt =>
    obtain ⟨b, rfl⟩ := List.length_eq_one_iff.mp hlength
    have hstep := writeDigits_step hx [] rest b (by decide)
    refine hstep.trans ?_
    rw [Nat.div_eq_of_lt hlt, writeDigits, if_pos rfl, Nat.mod_eq_of_lt hlt, decimalText_of_lt hlt]
    rfl
  | case2 x hge ih =>
    obtain ⟨before, b, rfl⟩ : ∃ before b, blank = before ++ [b] :=
      (List.eq_nil_or_concat' blank).resolve_left fun hnil => by simp [hnil] at hlength
    rw [List.length_append, List.length_singleton] at hlength hfits ⊢
    rw [List.append_assoc, List.singleton_append, writeDigits_step hx before rest b hfits,
      ih (by omega) before _ (by omega) (by omega), decimalText_of_le hge, List.append_assoc,
      List.singleton_append]

theorem decimalLength_le (x : Nat) : decimalLength x ≤ x + 1 := by
  fun_induction decimalLength x with
  | case1 x hlt => omega
  | case2 x hge ih => omega

theorem lt_pow_decimalLength (x : Nat) : x < 10 ^ decimalLength x := by
  fun_induction decimalLength x with
  | case1 x hlt => omega
  | case2 x hge ih =>
    rw [Nat.pow_succ]
    omega

/-- Below the bound of the machine, so that no length is out of reach. -/
theorem decimalLength_lt {x : Nat} (hx : x < uintBound) : decimalLength x < uintBound := by
  fun_cases decimalLength x with
  | case1 hlt => decide
  | case2 hge =>
    have := decimalLength_le (x / 10)
    omega

theorem toUtf8BytesUint_eq {x : Nat} (hx : x < uintBound) :
    toUtf8BytesUint x = .ok (decimalText x) := by
  unfold toUtf8BytesUint
  split
  · next hzero =>
    rw [hzero, decimalText_of_lt (by decide)]
    rfl
  · next hne =>
    have hlength : (List.replicate (decimalLength x) (0 : UInt8)).length = decimalLength x :=
      List.length_replicate
    have hwrite := writeDigits_eq hne (List.replicate (decimalLength x) 0) [] hlength
      (hlength.symm ▸ decimalLength_lt hx)
    rw [List.append_nil, List.append_nil, hlength] at hwrite
    rw [countDigits_eq hne, Nat.zero_add]
    exact hwrite

theorem decimalValue_decimalByte : ∀ d < 10, decimalValue (decimalByte d) = d := by decide

theorem readText_decimalText (x : Nat) : readText 10 decimalValue (decimalText x) = x :=
  readText_digitText decimalValue_decimalByte (lt_pow_decimalLength x)

theorem decimalByte_plain :
    ∀ d < 10, decimalByte d ≠ comma ∧ decimalByte d ≠ colon := by decide

theorem decimalText_plain (x : Nat) : ∀ c ∈ decimalText x, c ≠ comma ∧ c ≠ colon := by
  intro c hc
  obtain ⟨d, hd, rfl⟩ := mem_digitText (by decide) hc
  exact decimalByte_plain d hd

end Decimal

/-! ### Keys and values -/

inductive Kind where
  | bytes32
  | address
  | uint

structure Value where
  kind : Kind
  number : Nat

def Kind.bound : Kind → Nat
  | .bytes32 => 2 ^ 256
  | .address => 2 ^ 160
  | .uint => uintBound

/-- How a value is written. -/
def Value.text (v : Value) : Bytes :=
  match v.kind with
  | .bytes32 => hexText 64 v.number
  | .address => hexText 40 v.number
  | .uint => decimalText v.number

/-- The number that a reader takes from the text of a value. -/
def Kind.read : Kind → Bytes → Nat
  | .bytes32, text => readText 16 hexValue text
  | .address, text => readText 16 hexValue text
  | .uint, text => readText 10 decimalValue text

def append (data : Bytes) (entry : Bytes × Value) : Result Bytes :=
  match entry.2.kind with
  | .bytes32 => pure (appendKeyValueBytes32 data entry.1 entry.2.number)
  | .address => pure (appendKeyValueAddress data entry.1 (BitVec.ofNat 160 entry.2.number))
  | .uint => appendKeyValueUint data entry.1 entry.2.number

/-- An entry as a reader takes it apart, at its first colon. -/
def readEntry (entry : Bytes) : Bytes × Bytes :=
  (entry.takeWhile (· != colon), (entry.dropWhile (· != colon)).tail)

def readEntries (data : Bytes) : List (Bytes × Bytes) := (data.splitOn comma).map readEntry

section Entries
variable {key text data : Bytes} {v : Value} {entries : List (Bytes × Value)}

theorem Value.read_text (h : v.number < v.kind.bound) : v.kind.read v.text = v.number := by
  rcases v with ⟨_ | _ | _, n⟩
  · exact readText_hexText (h.trans_le (show 2 ^ 256 ≤ 16 ^ 64 by decide))
  · exact readText_hexText (h.trans_le (show 2 ^ 160 ≤ 16 ^ 40 by decide))
  · exact readText_decimalText n

theorem Value.text_plain (v : Value) : ∀ c ∈ v.text, c ≠ comma ∧ c ≠ colon := by
  rcases v with ⟨_ | _ | _, n⟩
  · exact hexText_plain 64 n
  · exact hexText_plain 40 n
  · exact decimalText_plain n

theorem append_eq (h : v.number < v.kind.bound) :
    append data (key, v) = .ok (data ++ constructPrefix data key ++ v.text) := by
  rcases v with ⟨_ | _ | _, n⟩
  · simp only [append, appendKeyValueBytes32, toUtf8Bytes_eq, Value.text]
    rfl
  · have hn : (BitVec.ofNat 160 n).toNat = n := by
      rw [BitVec.toNat_ofNat]
      exact Nat.mod_eq_of_lt h
    simp only [append, appendKeyValueAddress, toUtf8BytesAddress_eq, hn, Value.text]
    rfl
  · simp only [append, appendKeyValueUint, toUtf8BytesUint_eq h, ok_bind, Value.text]
    rfl

theorem readEntry_eq (hkey : ∀ c ∈ key, c ≠ colon) :
    readEntry (key ++ colon :: text) = (key, text) := by
  have hall : ∀ c ∈ key, (c != colon) = true := fun c hc => by simpa using hkey c hc
  rw [readEntry, List.takeWhile_append_of_pos hall, List.dropWhile_append_of_pos hall]
  simp

/-- What is appended to data that is not empty. -/
theorem runs_append (hbound : ∀ e ∈ entries, e.2.number < e.2.kind.bound) (hdata : data ≠ []) :
    runs append data entries =
      .ok (data ++ entries.flatMap fun e => comma :: (e.1 ++ colon :: e.2.text)) := by
  induction entries generalizing data with
  | nil => simp
  | cons e rest ih =>
    have hprefix : constructPrefix data e.1 = comma :: (e.1 ++ [colon]) := by
      rw [constructPrefix, if_pos (List.length_pos_iff.mpr hdata)]
      rfl
    have hnonempty : data ++ constructPrefix data e.1 ++ e.2.text ≠ [] := by simp [hdata]
    rw [runs_cons, append_eq (hbound e List.mem_cons_self), ok_bind,
      ih (fun e he => hbound e (List.mem_cons_of_mem _ he)) hnonempty, hprefix]
    simp

theorem intercalate_eq (first : Bytes) (rest : List Bytes) :
    [comma].intercalate (first :: rest) = first ++ rest.flatMap fun e => comma :: e := by
  induction rest generalizing first with
  | nil => simp
  | cons second rest ih =>
    rw [List.intercalate_cons_cons, ih]
    simp

/-- **A reader finds what was appended.** From keys without separators and values of their types, in
any order and number, the text is made, and split at its commas and colons it is the list of the
keys with the values as they were written, from which the values read back. -/
theorem entries_read_back (entries : List (Bytes × Value)) (hnonempty : entries ≠ [])
    (hkeys : ∀ e ∈ entries, ∀ c ∈ e.1, c ≠ comma ∧ c ≠ colon)
    (hbound : ∀ e ∈ entries, e.2.number < e.2.kind.bound) :
    ∃ data, runs append [] entries = .ok data ∧
      readEntries data = entries.map (fun e => (e.1, e.2.text)) ∧
      ∀ e ∈ entries, e.2.kind.read e.2.text = e.2.number := by
  cases entries with
  | nil => exact absurd rfl hnonempty
  | cons e rest =>
    let written (e : Bytes × Value) : Bytes := e.1 ++ colon :: e.2.text
    have hfirst : append [] e = .ok (written e) := by
      rw [append_eq (hbound e List.mem_cons_self)]
      simp [constructPrefix, written]
    have hrest : runs append (written e) rest = _ := runs_append
      (fun e he => hbound e (List.mem_cons_of_mem _ he)) (by simp [written])
    have hplain : ∀ l ∈ (e :: rest).map written, comma ∉ l := by
      intro l hl hcomma
      obtain ⟨e', he', rfl⟩ := List.mem_map.mp hl
      rcases List.mem_append.mp hcomma with hkey | htext
      · exact (hkeys e' he' comma hkey).1 rfl
      · rcases List.mem_cons.mp htext with hcolon | hvalue
        · exact absurd hcolon (by decide)
        · exact (e'.2.text_plain comma hvalue).1 rfl
    refine ⟨_, (runs_cons_eq_ok _).mpr ⟨_, hfirst, hrest⟩, ?_,
      fun e he => Value.read_text (hbound e he)⟩
    have hdata : written e ++ rest.flatMap (fun e => comma :: (e.1 ++ colon :: e.2.text)) =
        [comma].intercalate ((e :: rest).map written) := by
      rw [List.map_cons, intercalate_eq, List.flatMap_map]
    rw [hdata, readEntries, List.splitOn_intercalate comma hplain (by simp), List.map_map]
    exact List.map_congr_left fun e' he' => readEntry_eq fun c hc => (hkeys e' he' c hc).2

end Entries

def exampleEntries : List (Bytes × Value) :=
  [(Bytes.ofAscii "id", ⟨.uint, 1203⟩), (Bytes.ofAscii "at", ⟨.address, 255⟩),
    (Bytes.ofAscii "of", ⟨.bytes32, 2 ^ 255⟩)]

theorem entries_read_back_example :
    ∃ data, runs append [] exampleEntries = .ok data ∧
      (readEntries data).map Prod.fst =
        [Bytes.ofAscii "id", Bytes.ofAscii "at", Bytes.ofAscii "of"] := by
  obtain ⟨data, hdata, hread, _⟩ := entries_read_back exampleEntries (by decide)
    (by decide +kernel) (by decide)
  refine ⟨data, hdata, ?_⟩
  rw [hread, List.map_map]
  rfl

/-! ### Claims -/

section Claims
variable {key : Bytes} {n n' : Nat}

theorem appendFirst_eq (key : Bytes) (n : Nat) :
    appendKeyValueBytes32 [] key n = key ++ colon :: hexText 64 n := by
  rw [appendKeyValueBytes32, toUtf8Bytes_eq]
  simp [constructPrefix]

/-- Texts that begin with a pair of a key and a hash have the same hash and go on alike. -/
theorem claim_parts {rest rest' : Bytes} (hn : n < 2 ^ 256) (hn' : n' < 2 ^ 256)
    (h : appendKeyValueBytes32 [] key n ++ rest = appendKeyValueBytes32 [] key n' ++ rest') :
    n = n' ∧ rest = rest' := by
  have hlength (m : Nat) : (hexText 64 m).length = 64 := length_digitText
  rw [appendFirst_eq, appendFirst_eq] at h
  obtain ⟨hfirst, hrest⟩ := List.append_inj h (by simp [hlength])
  have htext : hexText 64 n = hexText 64 n' := by simpa using hfirst
  refine ⟨?_, hrest⟩
  rw [← readText_hexText (hn.trans_le (show 2 ^ 256 ≤ 16 ^ 64 by decide)), htext,
    readText_hexText (hn'.trans_le (show 2 ^ 256 ≤ 16 ^ 64 by decide))]

theorem plain_key : ∀ c ∈ Bytes.ofAscii "proposalHash", c ≠ comma ∧ c ≠ colon := by
  decide +kernel

/-- The entry before the first comma is read first. -/
theorem readEntries_head {rest : Bytes} (hkey : ∀ c ∈ key, c ≠ comma ∧ c ≠ colon) :
    (readEntries (appendKeyValueBytes32 [] key n ++ comma :: rest)).head? =
      some (key, hexText 64 n) := by
  have hplain : comma ∉ key ++ colon :: hexText 64 n := by
    intro hcomma
    rcases List.mem_append.mp hcomma with hmem | htext
    · exact (hkey comma hmem).1 rfl
    · rcases List.mem_cons.mp htext with hcolon | hvalue
      · exact absurd hcolon (by decide)
      · exact (hexText_plain 64 n comma hvalue).1 rfl
  rw [readEntries, appendFirst_eq, List.splitOn_append_cons_self_of_not_mem hplain, List.map_cons,
    List.head?_cons, readEntry_eq fun c hc => (hkey c hc).2]

/-- **A claim says what is proposed.** Whatever the rules are, a reader of the claim of either
extension finds the hash of the proposal first, and claims that are the same text are of the same
hash and the same rules. -/
theorem claim_determines (n n' : Nat) (hn : n < 2 ^ 256) (hn' : n' < 2 ^ 256) :
    (∀ rules rules' : Bytes,
      ((readEntries (OptimisticAuctionRebalanceExtensionV1.constructClaim n rules)).head?.map
        fun e => (e.1, Kind.bytes32.read e.2)) = some (Bytes.ofAscii "proposalHash", n) ∧
      (OptimisticAuctionRebalanceExtensionV1.constructClaim n rules =
        OptimisticAuctionRebalanceExtensionV1.constructClaim n' rules' →
          n = n' ∧ rules = rules')) ∧
    ∀ rulesHash rulesHash', rulesHash < 2 ^ 256 → rulesHash' < 2 ^ 256 →
      ((readEntries (GlobalOptimisticAuctionRebalanceExtension.constructClaim n
        rulesHash)).head?.map fun e => (e.1, Kind.bytes32.read e.2)) =
          some (Bytes.ofAscii "proposalHash", n) ∧
      (GlobalOptimisticAuctionRebalanceExtension.constructClaim n rulesHash =
        GlobalOptimisticAuctionRebalanceExtension.constructClaim n' rulesHash' →
          n = n' ∧ rulesHash = rulesHash') := by
  have hread : Kind.bytes32.read (hexText 64 n) = n :=
    readText_hexText (hn.trans_le (show 2 ^ 256 ≤ 16 ^ 64 by decide))
  have hhead (rest : Bytes) : ((readEntries (appendKeyValueBytes32 []
      (Bytes.ofAscii "proposalHash") n ++ comma :: rest)).head?.map
        fun e => (e.1, Kind.bytes32.read e.2)) = some (Bytes.ofAscii "proposalHash", n) := by
    rw [readEntries_head plain_key, Option.map_some, hread]
  refine ⟨fun rules rules' => ⟨hhead _, fun h => ?_⟩,
    fun rulesHash rulesHash' hrules hrules' => ⟨hhead _, fun h => ?_⟩⟩
  · obtain ⟨hhash, hrest⟩ := claim_parts hn hn' h
    exact ⟨hhash, List.append_cancel_left (List.append_cancel_right hrest)⟩
  · obtain ⟨hhash, hrest⟩ := claim_parts hn hn' h
    have hbytes : bytes32 rulesHash = bytes32 rulesHash' :=
      List.append_cancel_left (List.append_cancel_right hrest)
    refine ⟨hhash, ?_⟩
    rw [← Bytes.toNat_ofNat_of_lt (hrules.trans_le (show 2 ^ 256 ≤ 256 ^ 32 by decide)),
      ← Bytes.toNat_ofNat_of_lt (hrules'.trans_le (show 2 ^ 256 ≤ 256 ^ 32 by decide))]
    exact congrArg Bytes.toNat hbytes

theorem claim_determines_example :
    (readEntries (OptimisticAuctionRebalanceExtensionV1.constructClaim 255
      (Bytes.ofAscii "a,b:c"))).head?.map (fun e => (e.1, Kind.bytes32.read e.2)) =
        some (Bytes.ofAscii "proposalHash", 255) :=
  ((claim_determines 255 0 (by decide) (by decide)).1 _ []).1

end Claims

end IndexProtocol.AncillaryData
