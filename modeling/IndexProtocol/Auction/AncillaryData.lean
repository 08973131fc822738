import IndexProtocol.Evm.Bytes
import IndexProtocol.Evm.Loops
import IndexProtocol.NumberText
import IndexProtocol.Slots

/-! The AncillaryData library: claims as text.

What is asserted at the oracle is a text of keys and values, separated by colons and
commas, that whoever disputes it reads. A `bytes32` is written as 64 hexadecimal
digits, an address as 40 and a number in decimal. Half a word is made hexadecimal at
once: its digits are spread over the bytes of a word, and what is missing to the symbol
of a digit is added to all of them. -/
namespace IndexProtocol
open Evm

namespace AncillaryData

/-! ### Hexadecimal -/

/-- A step that takes what stands in a word apart. -/
def interleave (x shift mask : Nat) : Nat := (x ||| x * 2 ^ shift % uintBound) &&& mask

/-- The lower half of a word, as the 32 bytes of a word. -/
def toUtf8Bytes32Bottom (bytesIn : Nat) : Nat :=
  let x := bytesIn &&& 0x00000000000000000000000000000000ffffffffffffffffffffffffffffffff
  let x := interleave x 64 0x0000000000000000ffffffffffffffff0000000000000000ffffffffffffffff
  let x := interleave x 32 0x00000000ffffffff00000000ffffffff00000000ffffffff00000000ffffffff
  let x := interleave x 16 0x0000ffff0000ffff0000ffff0000ffff0000ffff0000ffff0000ffff0000ffff
  let x := interleave x 8 0x00ff00ff00ff00ff00ff00ff00ff00ff00ff00ff00ff00ff00ff00ff00ff00ff
  let x := interleave x 4 0x0f0f0f0f0f0f0f0f0f0f0f0f0f0f0f0f0f0f0f0f0f0f0f0f0f0f0f0f0f0f0f0f
  let h := (x &&& 0x0808080808080808080808080808080808080808080808080808080808080808) / 8
  let i := (x &&& 0x0404040404040404040404040404040404040404040404040404040404040404) / 4
  let j := (x &&& 0x0202020202020202020202020202020202020202020202020202020202020202) / 2
  (x + (h &&& (i ||| j)) * 0x27 % uintBound +
    0x3030303030303030303030303030303030303030303030303030303030303030) % uintBound

/-- The bytes of a `bytes32`. -/
def bytes32 (n : Nat) : Bytes := Bytes.ofNat 32 n

def toUtf8Bytes (bytesIn : Nat) : Bytes :=
  bytes32 (toUtf8Bytes32Bottom (bytesIn / 2 ^ 128)) ++ bytes32 (toUtf8Bytes32Bottom bytesIn)

/-- An address as `bytes20` stands in the upper bytes of a word. -/
def bytes20 (x : BitVec 160) : Nat := x.toNat * 2 ^ 96

def toUtf8BytesAddress (x : BitVec 160) : Bytes :=
  bytes32 (toUtf8Bytes32Bottom (bytes20 x / 2 ^ 128)) ++
    (bytes32 (toUtf8Bytes32Bottom (bytes20 x))).take 8

/-! ### Decimal -/

/-- The loop that counts digits. -/
def countDigits (j len : Nat) : Nat :=
  if j = 0 then len else countDigits (j / 10) (len + 1)

/-- The loop that writes them, from the last one on. -/
def writeDigits (bstr : Bytes) (k x : Nat) : Result Bytes :=
  if x = 0 then pure bstr
  else do
    let k := (k + uintBound - 1) % uintBound
    let temp := (48 + (x - x / 10 * 10) % 2 ^ 8) % 2 ^ 8
    let bstr ← write bstr k (UInt8.ofNat temp)
    writeDigits bstr k (x / 10)
termination_by x

def toUtf8BytesUint (x : Nat) : Result Bytes :=
  if x = 0 then pure [48]
  else
    let len := countDigits x 0
    writeDigits (List.replicate len 0) len x

/-! ### Keys and values -/

def comma : UInt8 := 44

def colon : UInt8 := 58

def constructPrefix (currentAncillaryData key : Bytes) : Bytes :=
  if 0 < currentAncillaryData.length then [comma] ++ key ++ [colon] else key ++ [colon]

def appendKeyValueBytes32 (currentAncillaryData key : Bytes) (value : Nat) : Bytes :=
  currentAncillaryData ++ constructPrefix currentAncillaryData key ++ toUtf8Bytes value

def appendKeyValueAddress (currentAncillaryData key : Bytes) (value : BitVec 160) : Bytes :=
  currentAncillaryData ++ constructPrefix currentAncillaryData key ++ toUtf8BytesAddress value

def appendKeyValueUint (currentAncillaryData key : Bytes) (value : Nat) : Result Bytes := do
  let digits ← toUtf8BytesUint value
  pure (currentAncillaryData ++ constructPrefix currentAncillaryData key ++ digits)

end AncillaryData

/-! ### The claims of the two extensions -/

open AncillaryData

namespace OptimisticAuctionRebalanceExtensionV1

def constructClaim (proposalHash : Nat) (rules : Bytes) : Bytes :=
  appendKeyValueBytes32 [] (Bytes.ofAscii "proposalHash") proposalHash ++
    (Bytes.ofAscii "," ++ Bytes.ofAscii "rules" ++ Bytes.ofAscii ":\"" ++ rules ++
      Bytes.ofAscii "\"")

end OptimisticAuctionRebalanceExtensionV1

namespace GlobalOptimisticAuctionRebalanceExtension

/-- The hash of the rules goes in as it is. -/
def constructClaim (proposalHash rulesHash : Nat) : Bytes :=
  appendKeyValueBytes32 [] (Bytes.ofAscii "proposalHash") proposalHash ++
    (Bytes.ofAscii "," ++ Bytes.ofAscii "rulesIPFSHash" ++ Bytes.ofAscii ":\"" ++
      bytes32 rulesHash ++ Bytes.ofAscii "\"")

end GlobalOptimisticAuctionRebalanceExtension

end IndexProtocol
