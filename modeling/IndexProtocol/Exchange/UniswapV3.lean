import IndexProtocol.PathFormat
import IndexProtocol.Exchange.ZeroExApi

/-! Paths of Uniswap V3.

A path is written as its tokens with the fee of a pool between each two. The exchange adapter
writes a path with a flag after it and reads its ends back from there; the DEX adapter writes it
from either end; the adapter for 0x reads the ends of one that it is given. All of them write the
same format (`pathFormat`), and what each reads is derived from that. -/
namespace IndexProtocol
open Evm Bytes

abbrev Fee := BitVec 24

def encodeAddress (token : Address) : Bytes := Bytes.ofNat 20 token.toNat

def encodeFee (fee : Fee) : Bytes := Bytes.ofNat 3 fee.toNat

def pathFormat : PathFormat Address Fee UInt8 where
  node := encodeAddress
  edge := encodeFee
  nodeSize := 20
  edgeSize := 3
  length_node token := length_ofNat 20 token.toNat
  length_edge fee := length_ofNat 3 fee.toNat

@[simp] theorem pathFormat_node (token : Address) : pathFormat.node token = encodeAddress token := rfl

@[simp] theorem pathFormat_edge (fee : Fee) : pathFormat.edge fee = encodeFee fee := rfl

/-! ### Reading bytes -/

namespace BytesLib

def slice (bytes : Bytes) (start length : Nat) : Result Bytes := do
  require (length ≤ (length + 31) % uintBound) "slice_overflow"
  require (start ≤ (start + length) % uintBound) "slice_overflow"
  require ((start + length) % uintBound ≤ bytes.length) "slice_outOfBounds"
  pure (bytes.slice start length)

def toAddress (bytes : Bytes) (start : Nat) : Result Address := do
  require (start ≤ (start + 20) % uintBound) "toAddress_overflow"
  require ((start + 20) % uintBound ≤ bytes.length) "toAddress_outOfBounds"
  pure (BitVec.ofNat 160 (toNat (bytes.slice start 20)))

end BytesLib

namespace BytesArrayUtils

def toBool (bytes : Bytes) (start : Nat) : Result Bool := do
  require (start ≤ (start + 1) % uintBound) "toBool_overflow"
  require ((start + 1) % uintBound ≤ bytes.length) "toBool_outOfBounds"
  let tempUint := bytes.getD start 0
  require (tempUint ≤ 1) "Invalid bool data"
  pure (decide (tempUint ≠ 0))

end BytesArrayUtils

/-! ### The exchange adapter -/

namespace UniswapV3ExchangeAdapterV2

structure ExactInputParams where
  path : Bytes
  recipient : Address
  deadline : Nat
  amountIn : Nat
  amountOutMinimum : Nat
  deriving DecidableEq

structure ExactOutputParams where
  path : Bytes
  recipient : Address
  deadline : Nat
  amountOut : Nat
  amountInMaximum : Nat
  deriving DecidableEq

/-- A call of the swap router, as its selector and parameters. -/
inductive SwapRouterCall
  | exactInput (params : ExactInputParams)
  | exactOutput (params : ExactOutputParams)
  deriving DecidableEq

/-- The call that trades along a path, at a time. -/
def swapRouterCall (fixInput : Bool) (pathData : Bytes) (destinationAddress : Address)
    (timestamp sourceQuantity destinationQuantity : Nat) : SwapRouterCall :=
  if fixInput then
    .exactInput ⟨pathData, destinationAddress, timestamp, sourceQuantity, destinationQuantity⟩
  else
    .exactOutput ⟨pathData, destinationAddress, timestamp, destinationQuantity, sourceQuantity⟩

def getTradeCalldata (swapRouter sourceToken destinationToken destinationAddress : Address)
    (sourceQuantity destinationQuantity : Nat) (data : Bytes) (timestamp : Nat) :
    Result (Address × Nat × SwapRouterCall) := do
  require (44 ≤ data.length) "Invalid data"
  let fixInput ← BytesArrayUtils.toBool data (data.length - 1)
  -- the path of an exact output is reversed
  let sourceFromPath ← BytesLib.toAddress data (if fixInput then 0 else data.length - 21)
  let destinationFromPath ← BytesLib.toAddress data (if fixInput then data.length - 21 else 0)
  require (sourceToken = sourceFromPath) "Source token path mismatch"
  require (destinationToken = destinationFromPath) "Destination token path mismatch"
  let pathData ← BytesLib.slice data 0 (data.length - 1)
  pure (swapRouter, 0, swapRouterCall fixInput pathData destinationAddress timestamp
    sourceQuantity destinationQuantity)

/-- The loop of `generateDataParam`, so many times. -/
def packHops (path : List Address) (fees : List Fee) (n : Nat) : Result Bytes :=
  (List.range n).foldlM (fun data i => do
    let token ← access path i
    let fee ← access fees i
    pure (data ++ encodeAddress token ++ encodeFee fee)) []

/-- The decoder of calldata takes no longer arrays. -/
def arrayBound : Nat := 2 ^ 64

def generateDataParam (path : List Address) (fees : List Fee) (fixIn : Bool) : Result Bytes := do
  require (path.length < arrayBound ∧ fees.length < arrayBound) ""
  let data ← packHops path fees (path.length - 1)
  let last ← access path (path.length - 1)
  pure (data ++ encodeAddress last ++ [if fixIn then 1 else 0])

end UniswapV3ExchangeAdapterV2

/-! ### The DEX adapter -/

namespace DEXAdapterV2

def encodePathV3 (path : List Address) (fees : List Fee) (reverseOrder : Bool) : Result Bytes :=
  if reverseOrder then do
    let last ← access path (path.length - 1)
    (List.range fees.length).foldlM (fun encodedPath i => do
      let index := fees.length - i - 1
      let fee ← access fees index
      let token ← access path index
      pure (encodedPath ++ encodeFee fee ++ encodeAddress token)) (encodeAddress last)
  else do
    let first ← access path 0
    (List.range fees.length).foldlM (fun encodedPath i => do
      let fee ← access fees i
      let token ← access path (i + 1)
      pure (encodedPath ++ encodeFee fee ++ encodeAddress token)) (encodeAddress first)

/-- A path written from its other end is the reversed path. -/
theorem encodePathV3_reverse {path : List Address} {fees : List Fee}
    (hfees : fees.length + 1 = path.length) :
    encodePathV3 path fees true = encodePathV3 path.reverse fees.reverse false := by
  rw [encodePathV3, encodePathV3, if_pos rfl, if_neg Bool.false_ne_true, List.length_reverse,
    access_reverse (by omega)]
  congr 1
  funext last
  refine runs_congr _ fun encodedPath i hi => ?_
  have hi : i < fees.length := List.mem_range.mp hi
  have hindex : path.length - 1 - (i + 1) = fees.length - i - 1 := by omega
  have hindex' : fees.length - 1 - i = fees.length - i - 1 := by omega
  rw [access_reverse hi, access_reverse (by omega), hindex, hindex']

end DEXAdapterV2

/-! ### What is written -/

section Writing
variable {first : Address} {rest : List Address} {fees : List Fee}

/-- One hop more of the hops of a path. -/
theorem pack_take_succ {k : Nat} (hk : k < fees.length) (hrest : k < rest.length) :
    pathFormat.pack first ((fees.zip rest).take (k + 1)) =
      pathFormat.pack first ((fees.zip rest).take k) ++ encodeFee fees[k] ++
        encodeAddress rest[k] := by
  have hzip : k < (fees.zip rest).length := by rw [List.length_zip]; omega
  rw [List.take_succ_eq_append_getElem hzip, List.getElem_zip, PathFormat.pack_concat,
    pathFormat_node, pathFormat_edge]

theorem DEXAdapterV2.encodePathV3_eq (hfees : fees.length = rest.length) :
    encodePathV3 (first :: rest) fees false = .ok (pathFormat.pack first (fees.zip rest)) := by
  have hloop : ∀ k ≤ fees.length,
      (List.range k).foldlM (fun encodedPath i => do
        let fee ← access fees i
        let token ← access (first :: rest) (i + 1)
        pure (encodedPath ++ encodeFee fee ++ encodeAddress token)) (encodeAddress first) =
      (.ok (pathFormat.pack first ((fees.zip rest).take k)) : Result Bytes) := by
    intro k hk
    induction k with
    | zero =>
      rw [List.take_zero, PathFormat.pack_nil]
      rfl
    | succ k ih =>
      rw [List.range_succ, List.foldlM_append, ih (by omega), ok_bind, List.foldlM_cons,
        access_eq (by omega), ok_bind, access_eq (by rw [List.length_cons]; omega), ok_bind,
        pack_take_succ (by omega) (by omega)]
      rfl
  have hall : (fees.zip rest).take fees.length = fees.zip rest :=
    List.take_of_length_le (by rw [List.length_zip]; omega)
  rw [encodePathV3, if_neg Bool.false_ne_true, access_eq (Nat.zero_lt_succ _), ok_bind,
    List.getElem_cons_zero, hloop _ le_rfl, hall]

namespace UniswapV3ExchangeAdapterV2

/-- The loop leaves the path up to a token, which is written next. -/
theorem packHops_eq {k : Nat} (hk : k ≤ fees.length) (hfees : fees.length = rest.length) :
    ∃ data, packHops (first :: rest) fees k = .ok data ∧ ∀ token, (first :: rest)[k]? = some token →
      data ++ encodeAddress token = pathFormat.pack first ((fees.zip rest).take k) := by
  induction k with
  | zero =>
    refine ⟨[], rfl, fun token htoken => ?_⟩
    obtain rfl : first = token := Option.some.inj htoken
    rw [List.take_zero, PathFormat.pack_nil, List.nil_append, pathFormat_node]
  | succ k ih =>
    obtain ⟨data, hdata, hpack⟩ := ih (by omega)
    have hlength : k < (first :: rest).length := by rw [List.length_cons]; omega
    have hnext : packHops (first :: rest) fees (k + 1) =
        .ok (data ++ encodeAddress (first :: rest)[k] ++ encodeFee fees[k]) := by
      rw [packHops] at hdata
      rw [packHops, List.range_succ, List.foldlM_append, hdata, ok_bind, List.foldlM_cons,
        access_eq hlength, ok_bind, access_eq (by omega), ok_bind]
      rfl
    refine ⟨_, hnext, fun token htoken => ?_⟩
    rw [List.getElem?_cons_succ, List.getElem?_eq_getElem (by omega)] at htoken
    obtain rfl := Option.some.inj htoken
    rw [hpack _ (List.getElem?_eq_getElem hlength), pack_take_succ (by omega) (by omega)]

theorem generateDataParam_eq (hfees : fees.length = rest.length)
    (hbound : (first :: rest).length < arrayBound) (fixIn : Bool) :
    generateDataParam (first :: rest) fees fixIn =
      .ok (pathFormat.pack first (fees.zip rest) ++ [if fixIn then 1 else 0]) := by
  have hlast : (first :: rest).length - 1 = fees.length := by rw [List.length_cons]; omega
  have hlt : fees.length < (first :: rest).length := by rw [List.length_cons]; omega
  obtain ⟨data, hdata, hpack⟩ := @packHops_eq first rest fees _ le_rfl hfees
  have hall : (fees.zip rest).take fees.length = fees.zip rest :=
    List.take_of_length_le (by rw [List.length_zip]; omega)
  have hrequire : (first :: rest).length < arrayBound ∧ fees.length < arrayBound :=
    ⟨hbound, by omega⟩
  rw [generateDataParam, require, if_pos hrequire, ok_bind, hlast, hdata, ok_bind, access_eq hlt,
    ok_bind, hpack _ (List.getElem?_eq_getElem hlt), hall]
  rfl

theorem length_lt_of_generateDataParam {path : List Address} {fixIn : Bool} {data : Bytes}
    (h : generateDataParam path fees fixIn = .ok data) : path.length < arrayBound := by
  rw [generateDataParam, bind_eq_ok] at h
  obtain ⟨_, hrequire, _⟩ := h
  exact (require_eq_ok.mp hrequire).1

end UniswapV3ExchangeAdapterV2

end Writing

/-! ### What is read -/

section Reading
variable {first : Address} {hops : List (Fee × Address)}

theorem ofNat_encodeAddress (token : Address) :
    BitVec.ofNat 160 (toNat (encodeAddress token)) = token := by
  have hwidth : token.toNat < 256 ^ 20 := token.isLt
  rw [encodeAddress, toNat_ofNat_of_lt hwidth, BitVec.ofNat_toNat, BitVec.setWidth_eq]

theorem length_pathFormat : (pathFormat.pack first hops).length = 20 + hops.length * 23 :=
  pathFormat.length_pack first hops

theorem slice_first (after : Bytes) :
    Bytes.slice (pathFormat.pack first hops ++ after) 0 20 = encodeAddress first := by
  rw [PathFormat.pack, pathFormat_node, List.append_assoc]
  exact slice_start (length_ofNat 20 _)

theorem slice_target (after : Bytes) :
    Bytes.slice (pathFormat.pack first hops ++ after) (hops.length * 23) 20 =
      encodeAddress (PathFormat.target first hops) := by
  obtain ⟨before, hpack, hbefore⟩ := pathFormat.pack_eq_append_target first hops
  rw [hpack, pathFormat_node, List.append_assoc]
  exact slice_append hbefore (length_ofNat 20 _)

/-- The adapter for 0x reads the ends of a path. -/
theorem decodeTokens_pack (hhops : 0 < hops.length) :
    ZeroExApiAdapter.decodeTokensFromUniswapV3EncodedPath (pathFormat.pack first hops) =
      .ok (first, PathFormat.target first hops) := by
  have hlong : ZeroExApiAdapter.uniswapV3SingleHopPathSize ≤ (pathFormat.pack first hops).length := by
    rw [length_pathFormat, ZeroExApiAdapter.uniswapV3SingleHopPathSize]
    simp only [ZeroExApiAdapter.uniswapV3PathAddressSize, ZeroExApiAdapter.uniswapV3PathFeeSize]
    omega
  have hnumHops : ((pathFormat.pack first hops).length - ZeroExApiAdapter.uniswapV3PathAddressSize) /
      ZeroExApiAdapter.uniswapV3SingleHopOffsetSize = hops.length := by
    rw [length_pathFormat, ZeroExApiAdapter.uniswapV3PathAddressSize, Nat.add_sub_cancel_left]
    exact Nat.mul_div_cancel _ (by decide)
  have hfirst : Bytes.slice (pathFormat.pack first hops) 0 20 = encodeAddress first :=
    List.append_nil (pathFormat.pack first hops) ▸ slice_first []
  have htarget : Bytes.slice (pathFormat.pack first hops) (hops.length * 23) 20 =
      encodeAddress (PathFormat.target first hops) :=
    List.append_nil (pathFormat.pack first hops) ▸ slice_target []
  rw [ZeroExApiAdapter.decodeTokensFromUniswapV3EncodedPath, require, if_pos hlong, ok_bind]
  dsimp only
  rw [hnumHops, ZeroExApiAdapter.tokenAt, ZeroExApiAdapter.tokenAt,
    ZeroExApiAdapter.uniswapV3PathAddressSize, hfirst, ZeroExApiAdapter.uniswapV3SingleHopOffsetSize,
    ZeroExApiAdapter.uniswapV3PathAddressSize, ZeroExApiAdapter.uniswapV3PathFeeSize, htarget,
    ofNat_encodeAddress, ofNat_encodeAddress]
  rfl

theorem BytesLib.toAddress_eq {bytes : Bytes} {start : Nat} (hbound : bytes.length < uintBound)
    (hstart : start + 20 ≤ bytes.length) :
    toAddress bytes start = .ok (BitVec.ofNat 160 (toNat (bytes.slice start 20))) := by
  rw [toAddress, Nat.mod_eq_of_lt (by omega), require, if_pos (by omega), ok_bind, require,
    if_pos hstart]
  rfl

/-- What is before the last byte. -/
theorem BytesLib.slice_concat {bytes : Bytes} {flag : UInt8}
    (hbound : bytes.length + 31 < uintBound) :
    slice (bytes ++ [flag]) 0 bytes.length = .ok bytes := by
  have hlength : bytes.length ≤ (bytes ++ [flag]).length := by
    rw [List.length_append]
    exact Nat.le_add_right _ _
  rw [slice, Nat.mod_eq_of_lt hbound, Nat.zero_add, Nat.mod_eq_of_lt (by omega), require,
    if_pos (Nat.le_add_right _ _), ok_bind, require, if_pos (Nat.zero_le _), ok_bind, require,
    if_pos hlength, ok_bind]
  exact congrArg _ (slice_start rfl)

/-- The flag after a path is read as it was written. -/
theorem BytesArrayUtils.toBool_concat {bytes : Bytes} (hbound : bytes.length + 1 < uintBound)
    (flag : Bool) : toBool (bytes ++ [if flag then 1 else 0]) bytes.length = .ok flag := by
  have hlength : bytes.length + 1 ≤ (bytes ++ [if flag then (1 : UInt8) else 0]).length := by
    rw [List.length_append, List.length_singleton]
  rw [toBool, Nat.mod_eq_of_lt hbound, require, if_pos (Nat.le_succ _), ok_bind, require,
    if_pos hlength, ok_bind, List.getD_eq_getElem?_getD,
    List.getElem?_concat_length]
  cases flag <;> rfl

/-- The exchange adapter accepts a path with its flag exactly for the tokens at its ends, and forwards
the path as it is. -/
theorem UniswapV3ExchangeAdapterV2.getTradeCalldata_pack {swapRouter source destination : Address}
    {destinationAddress : Address} {sourceQuantity destinationQuantity timestamp : Nat}
    {call : Address × Nat × SwapRouterCall} (hhops : 0 < hops.length)
    (hbound : hops.length < arrayBound) (fixIn : Bool) :
    getTradeCalldata swapRouter source destination destinationAddress sourceQuantity
        destinationQuantity (pathFormat.pack first hops ++ [if fixIn then 1 else 0]) timestamp =
          .ok call ↔
      source = (if fixIn then first else PathFormat.target first hops) ∧
        destination = (if fixIn then PathFormat.target first hops else first) ∧
        (swapRouter, 0, swapRouterCall fixIn (pathFormat.pack first hops) destinationAddress
          timestamp sourceQuantity destinationQuantity) = call := by
  have hpack : (pathFormat.pack first hops).length = 20 + hops.length * 23 := length_pathFormat
  have hword : 64 * arrayBound < uintBound := by decide
  have hlong : 2 ≤ arrayBound := by decide
  generalize hencoded : pathFormat.pack first hops = encoded at hpack ⊢
  generalize hflag : (if fixIn then (1 : UInt8) else 0) = flag
  have hlength : (encoded ++ [flag]).length = encoded.length + 1 := by
    rw [List.length_append, List.length_singleton]
  have htoBool : BytesArrayUtils.toBool (encoded ++ [flag]) encoded.length = .ok fixIn := by
    rw [← hflag]
    exact BytesArrayUtils.toBool_concat (by omega) fixIn
  have hfirst : BytesLib.toAddress (encoded ++ [flag]) 0 = .ok first := by
    rw [BytesLib.toAddress_eq (by omega) (by omega), ← hencoded, slice_first, ofNat_encodeAddress]
  have htarget : BytesLib.toAddress (encoded ++ [flag]) (hops.length * 23) =
      .ok (PathFormat.target first hops) := by
    rw [BytesLib.toAddress_eq (by omega) (by omega), ← hencoded, slice_target, ofNat_encodeAddress]
  have hlast : (encoded ++ [flag]).length - 1 = encoded.length := by omega
  have hoffset : (encoded ++ [flag]).length - 21 = hops.length * 23 := by omega
  rw [getTradeCalldata, require, if_pos (by omega), ok_bind, hlast, htoBool, ok_bind, hoffset,
    BytesLib.slice_concat (by omega)]
  cases fixIn with
  | true =>
    simp only [if_true, hfirst, htarget, ok_bind, bind_eq_ok, require_eq_ok, exists_const,
      pure_eq_ok]
  | false =>
    simp only [Bool.false_eq_true, if_false, hfirst, htarget, ok_bind, bind_eq_ok, require_eq_ok,
      exists_const, pure_eq_ok]

end Reading

/-! ### What writers and readers agree on -/

/-- The tokens at the ends of a path, which may be written from its other end. -/
def Ends (path : List Address) (forward : Bool) (source destination : Address) : Prop :=
  (if forward then path else path.reverse).head? = some source ∧
    (if forward then path else path.reverse).getLast? = some destination

structure PathsAgree (path : List Address) (fees : List Fee) : Prop where
  /-- What the exchange adapter generates for a path that calldata can hold. -/
  generated : ∀ fixIn,
    (∃ data, UniswapV3ExchangeAdapterV2.generateDataParam path fees fixIn = .ok data) ↔
      path.length < UniswapV3ExchangeAdapterV2.arrayBound
  /-- The exchange adapter accepts what it generates exactly for the tokens at the ends, and
  forwards the path that comes before the flag. -/
  accepted : ∀ {fixIn data},
    UniswapV3ExchangeAdapterV2.generateDataParam path fees fixIn = .ok data →
      ∃ encoded, DEXAdapterV2.encodePathV3 path fees false = .ok encoded ∧
        data = encoded ++ [if fixIn then 1 else 0] ∧
        ∀ swapRouter source destination destinationAddress sourceQuantity destinationQuantity
          timestamp call,
          UniswapV3ExchangeAdapterV2.getTradeCalldata swapRouter source destination
            destinationAddress sourceQuantity destinationQuantity data timestamp = .ok call ↔
          Ends path fixIn source destination ∧
            call = (swapRouter, 0, UniswapV3ExchangeAdapterV2.swapRouterCall fixIn encoded
              destinationAddress timestamp sourceQuantity destinationQuantity)
  reversed : DEXAdapterV2.encodePathV3 path fees true =
    DEXAdapterV2.encodePathV3 path.reverse fees.reverse false
  /-- The adapter for 0x reads the ends of a path written in either order. -/
  decoded : ∀ reverseOrder, ∃ encoded inputToken outputToken,
    DEXAdapterV2.encodePathV3 path fees reverseOrder = .ok encoded ∧
      Ends path (!reverseOrder) inputToken outputToken ∧
      ZeroExApiAdapter.decodeTokensFromUniswapV3EncodedPath encoded = .ok (inputToken, outputToken)

theorem getLast?_target {first : Address} {rest : List Address} {fees : List Fee}
    (hfees : fees.length = rest.length) :
    (first :: rest).getLast? = some (PathFormat.target first (fees.zip rest)) := by
  rw [PathFormat.target, List.map_snd_zip hfees.ge, List.getLast?_cons, List.getLastD_eq_getLast?]

/-- A path of one hop or more, with a fee for each. -/
theorem exists_hops {path : List Address} {fees : List Fee} (hpath : 2 ≤ path.length)
    (hfees : fees.length + 1 = path.length) :
    ∃ first rest, path = first :: rest ∧ fees.length = rest.length ∧
      0 < (fees.zip rest).length := by
  cases path with
  | nil => exact absurd hpath (by decide)
  | cons first rest =>
    rw [List.length_cons] at hpath hfees
    exact ⟨first, rest, rfl, by omega, by rw [List.length_zip]; omega⟩

theorem decode_encodePathV3 {path : List Address} {fees : List Fee} (hpath : 2 ≤ path.length)
    (hfees : fees.length + 1 = path.length) :
    ∃ encoded inputToken outputToken, DEXAdapterV2.encodePathV3 path fees false = .ok encoded ∧
      Ends path true inputToken outputToken ∧
      ZeroExApiAdapter.decodeTokensFromUniswapV3EncodedPath encoded =
        .ok (inputToken, outputToken) := by
  obtain ⟨first, rest, rfl, hrest, hhops⟩ := exists_hops hpath hfees
  exact ⟨_, _, _, DEXAdapterV2.encodePathV3_eq hrest, ⟨List.head?_cons, getLast?_target hrest⟩,
    decodeTokens_pack hhops⟩

/-- **Paths are written and read alike.** -/
theorem pathsAgree {path : List Address} {fees : List Fee} (hpath : 2 ≤ path.length)
    (hfees : fees.length + 1 = path.length) : PathsAgree path fees := by
  obtain ⟨first, rest, rfl, hrest, hhops⟩ := exists_hops hpath hfees
  refine ⟨fun fixIn => ⟨fun hgenerated => ?_, fun hbound => ?_⟩, ?_,
    DEXAdapterV2.encodePathV3_reverse hfees, fun reverseOrder => ?_⟩
  · obtain ⟨data, hdata⟩ := hgenerated
    exact UniswapV3ExchangeAdapterV2.length_lt_of_generateDataParam hdata
  · exact ⟨_, UniswapV3ExchangeAdapterV2.generateDataParam_eq hrest hbound fixIn⟩
  · intro fixIn data hdata
    have hbound := UniswapV3ExchangeAdapterV2.length_lt_of_generateDataParam hdata
    rw [UniswapV3ExchangeAdapterV2.generateDataParam_eq hrest hbound] at hdata
    obtain rfl := Except.ok.inj hdata
    have hzip : (fees.zip rest).length < UniswapV3ExchangeAdapterV2.arrayBound := by
      rw [List.length_zip]
      rw [List.length_cons] at hbound
      omega
    refine ⟨_, DEXAdapterV2.encodePathV3_eq hrest, rfl, fun router source destination _ _ _ _ call => ?_⟩
    rw [UniswapV3ExchangeAdapterV2.getTradeCalldata_pack hhops hzip, ← and_assoc, Ends]
    refine and_congr ?_ eq_comm
    cases fixIn with
    | true =>
      rw [if_pos rfl, if_pos rfl, if_pos rfl, List.head?_cons, getLast?_target hrest,
        Option.some.injEq, Option.some.injEq, eq_comm, @eq_comm _ destination]
    | false =>
      rw [if_neg Bool.false_ne_true, if_neg Bool.false_ne_true, if_neg Bool.false_ne_true,
        List.head?_reverse, List.getLast?_reverse, List.head?_cons, getLast?_target hrest,
        Option.some.injEq, Option.some.injEq, eq_comm, @eq_comm _ destination]
  · cases reverseOrder with
    | false => exact decode_encodePathV3 hpath hfees
    | true =>
      rw [DEXAdapterV2.encodePathV3_reverse hfees]
      refine decode_encodePathV3 ?_ ?_
      · rw [List.length_reverse]
        exact hpath
      · rw [List.length_reverse, List.length_reverse]
        exact hfees

/-- A path of two hops. -/
theorem pathsAgree_example : PathsAgree [0xa, 0xb, 0xc] [500, 3000] :=
  pathsAgree (by decide) (by decide)

end IndexProtocol
