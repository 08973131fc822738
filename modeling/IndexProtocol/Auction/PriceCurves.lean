import IndexProtocol.BoundedCurve
import IndexProtocol.Evm.Abi

/-! The bounded stepwise price adapters of auctions.

The price moves away from its start once in each bucket of time: by a fixed slope, with the
exponential of the time or with its logarithm. What would overflow is caught before, and
then the price is at its bound. The functions on fixed point numbers are those of a
library. -/
namespace IndexProtocol
open Evm

/-- The functions used of the library `FixedPointMathLib`. -/
structure FixedPointMathLib where
  expWad : Int → Result Int
  lnWad : Int → Result Int
  mulWad : Nat → Nat → Result Nat

namespace FixedPointMathLib

def wad : Nat := 10 ^ 18

/-- What is known of the functions: where they return, that exponential and logarithm grow and are
no less than one and zero from there on, and that a product is rounded down. -/
structure Sound (lib : FixedPointMathLib) : Prop where
  expWad : ∀ x : Int, 0 ≤ x → x < 135305999368893231589 →
    ∃ y : Int, lib.expWad x = .ok y ∧ wad ≤ y ∧ y < intBound
  expWad_mono : ∀ {x x' y y' : Int}, 0 ≤ x → x ≤ x' → lib.expWad x = .ok y →
    lib.expWad x' = .ok y' → y ≤ y'
  lnWad : ∀ x : Int, (wad : Int) ≤ x → x < intBound →
    ∃ y : Int, lib.lnWad x = .ok y ∧ 0 ≤ y ∧ y < intBound
  lnWad_mono : ∀ {x x' y y' : Int}, (wad : Int) ≤ x → x ≤ x' → lib.lnWad x = .ok y →
    lib.lnWad x' = .ok y' → y ≤ y'
  mulWad : ∀ x y : Nat, x * y < uintBound → lib.mulWad x y = .ok (x * y / wad)

end FixedPointMathLib
open FixedPointMathLib (wad)

/-! ### What the adapters share -/

namespace BoundedStepwisePriceAdapter

def maxUint : Nat := uintBound - 1

def maxInt : Nat := intBound.toNat - 1

/-- The `uint256` with the bits of an `int256`. -/
def toUint (x : Int) : Nat := (x % uintBound).toNat

def getBoundaryPrice (isDecreasing : Bool) (maxPrice minPrice : Nat) : Nat :=
  if isDecreasing then minPrice else maxPrice

/-- The end of each `getPrice`. -/
def changePrice (isDecreasing : Bool) (initialPrice maxPrice minPrice priceChange : Nat) :
    Result Nat := do
  if isDecreasing then
    if initialPrice < priceChange then pure minPrice
    else
      let price ← Checked.sub initialPrice priceChange
      pure (max price minPrice)
  else
    let room ← Checked.sub maxUint initialPrice
    if room < priceChange then pure maxPrice
    else
      let price ← Checked.add initialPrice priceChange
      pure (min price maxPrice)

/-- What holds of a price as time passes. -/
structure Curve (getPrice : Nat → Result Nat) (bucketSize minPrice maxPrice : Nat)
    (isDecreasing : Bool) : Prop where
  total : ∀ timeElapsed, ∃ price, getPrice timeElapsed = .ok price ∧ minPrice ≤ price ∧
    price ≤ maxPrice
  monotone : ∀ {timeElapsed timeElapsed' price price'}, timeElapsed ≤ timeElapsed' →
    getPrice timeElapsed = .ok price → getPrice timeElapsed' = .ok price' →
      if isDecreasing = true then price' ≤ price else price ≤ price'
  bucket : ∀ {timeElapsed timeElapsed'}, timeElapsed / bucketSize = timeElapsed' / bucketSize →
    getPrice timeElapsed = getPrice timeElapsed'

variable {getPrice : Nat → Result Nat} {bucketSize : Nat} {isDecreasing : Bool}
  {c : BoundedCurve}

/-- A price that a distance decides, which the bucket decides and which grows with it. -/
theorem Curve.of_distance (Distance : Nat → WithTop ℕ → Prop)
    (hmono : ∀ {b b' d d'}, b ≤ b' → Distance b d → Distance b' d' → d ≤ d')
    (hprice : ∀ timeElapsed, ∃ d, Distance (timeElapsed / bucketSize) d ∧
      getPrice timeElapsed = .ok (c.value isDecreasing d)) :
    Curve getPrice bucketSize c.lower c.upper isDecreasing := by
  refine ⟨fun timeElapsed => ?_, ?_, ?_⟩
  · obtain ⟨d, _, hd⟩ := hprice timeElapsed
    exact ⟨_, hd, c.lower_le_value isDecreasing d, c.value_le_upper isDecreasing d⟩
  · intro timeElapsed timeElapsed' price price' hle hget hget'
    obtain ⟨d, hdistance, hd⟩ := hprice timeElapsed
    obtain ⟨d', hdistance', hd'⟩ := hprice timeElapsed'
    have hgrows : d ≤ d' := hmono (Nat.div_le_div_right hle) hdistance hdistance'
    rw [hd] at hget
    rw [hd'] at hget'
    obtain rfl := Except.ok.inj hget
    obtain rfl := Except.ok.inj hget'
    cases isDecreasing with
    | true => exact c.value_antitone hgrows
    | false => exact c.value_monotone hgrows
  · intro timeElapsed timeElapsed' hbucket
    obtain ⟨d, hdistance, hd⟩ := hprice timeElapsed
    obtain ⟨d', hdistance', hd'⟩ := hprice timeElapsed'
    have hsame : d = d' := le_antisymm (hmono hbucket.le hdistance hdistance')
      (hmono hbucket.ge hdistance' hdistance)
    rw [hd, hd', hsame]

theorem getBoundaryPrice_eq (c : BoundedCurve) (isDecreasing : Bool) :
    getBoundaryPrice isDecreasing c.upper c.lower = c.value isDecreasing ⊤ := by
  cases isDecreasing <;> rfl

/-- The end of `getPrice` is the value at the distance, also where that overflows. -/
theorem changePrice_eq {priceChange : Nat} (hupper : c.upper < uintBound) :
    changePrice isDecreasing c.start c.upper c.lower priceChange =
      .ok (c.value isDecreasing (WithTop.some priceChange)) := by
  have hlower := c.lower_le
  have hstart := c.le_upper
  cases isDecreasing with
  | true =>
    by_cases hover : c.start < priceChange
    · have hbeyond : c.value true (WithTop.some priceChange) = c.lower :=
        c.value_of_beyond (by rw [if_pos rfl]; omega)
      rw [changePrice, if_pos rfl, if_pos hover, hbeyond]
      rfl
    · rw [changePrice, if_pos rfl, if_neg hover, Checked.sub_eq (not_lt.mp hover)]
      rfl
  | false =>
    have hmax : maxUint + 1 = uintBound := rfl
    rw [changePrice, if_neg Bool.false_ne_true, Checked.sub_eq (by omega), ok_bind]
    by_cases hover : maxUint - c.start < priceChange
    · have hbeyond : c.value false (WithTop.some priceChange) = c.upper :=
        c.value_of_beyond (by rw [if_neg Bool.false_ne_true]; omega)
      rw [if_pos hover, hbeyond]
      rfl
    · rw [if_neg hover, Checked.add_eq (by omega)]
      rfl

end BoundedStepwisePriceAdapter

open BoundedStepwisePriceAdapter

/-! ### The linear adapter -/

namespace BoundedStepwiseLinearPriceAdapter

structure Params where
  initialPrice : Nat
  slope : Nat
  bucketSize : Nat
  isDecreasing : Bool
  maxPrice : Nat
  minPrice : Nat

/-- What the parameters are as arguments of the contract. -/
def Params.words (p : Params) : List Nat :=
  [p.initialPrice, p.slope, p.bucketSize, Abi.encodeBool p.isDecreasing, p.maxPrice, p.minPrice]

def getEncodedData (p : Params) : Bytes := Abi.encodeWords p.words

def getDecodedData (data : Bytes) : Result Params := do
  require (192 ≤ data.length) ""
  let isDecreasing ← Abi.decodeBool (Abi.word data 96)
  pure ⟨Abi.word data 0, Abi.word data 32, Abi.word data 64, isDecreasing, Abi.word data 128,
    Abi.word data 160⟩

def areParamsValid (p : Params) : Bool :=
  decide (0 < p.initialPrice ∧ 0 < p.slope ∧ 0 < p.bucketSize ∧ p.initialPrice ≤ p.maxPrice ∧
    p.minPrice ≤ p.initialPrice)

def getPrice (timeElapsed : Nat) (data : Bytes) : Result Nat := do
  let p ← getDecodedData data
  require (areParamsValid p = true) "BoundedStepwiseLinearPriceAdapter: Invalid params"
  let bucket ← Checked.div timeElapsed p.bucketSize
  let maxBucket ← Checked.div maxUint p.slope
  if maxBucket < bucket then pure (getBoundaryPrice p.isDecreasing p.maxPrice p.minPrice)
  else
    let priceChange ← Checked.mul bucket p.slope
    changePrice p.isDecreasing p.initialPrice p.maxPrice p.minPrice priceChange

def isPriceAdapterConfigDataValid (data : Bytes) : Result Bool := do
  let p ← getDecodedData data
  pure (areParamsValid p)

theorem getDecodedData_getEncodedData {p : Params} (h : ∀ n ∈ p.words, n < uintBound) :
    getDecodedData (getEncodedData p) = .ok p := by
  have hlength : 192 ≤ (getEncodedData p).length := (Abi.length_encodeWords p.words).ge
  have hword (i : Fin 6) : Abi.word (getEncodedData p) (32 * i) = p.words.get i :=
    Abi.word_encodeWords h i
  have hflag : Abi.word (getEncodedData p) 96 = Abi.encodeBool p.isDecreasing := hword 3
  simp only [getDecodedData, bind_eq_ok, require_eq_ok, exists_const, pure_eq_ok]
  refine ⟨hlength, p.isDecreasing, hflag ▸ Abi.decodeBool_encodeBool _, ?_⟩
  rw [show Abi.word (getEncodedData p) 0 = p.initialPrice from hword 0,
    show Abi.word (getEncodedData p) 32 = p.slope from hword 1,
    show Abi.word (getEncodedData p) 64 = p.bucketSize from hword 2,
    show Abi.word (getEncodedData p) 128 = p.maxPrice from hword 4,
    show Abi.word (getEncodedData p) 160 = p.minPrice from hword 5]

variable {p : Params} {data : Bytes} {timeElapsed : Nat}

theorem areParamsValid_eq_true : areParamsValid p = true ↔
    0 < p.initialPrice ∧ 0 < p.slope ∧ 0 < p.bucketSize ∧ p.initialPrice ≤ p.maxPrice ∧
      p.minPrice ≤ p.initialPrice := decide_eq_true_iff

/-- The bounds of valid parameters. -/
def Params.curve (p : Params) (h : areParamsValid p = true) : BoundedCurve where
  start := p.initialPrice
  lower := p.minPrice
  upper := p.maxPrice
  lower_le := (areParamsValid_eq_true.mp h).2.2.2.2
  le_upper := (areParamsValid_eq_true.mp h).2.2.2.1

/-- The price is the value at the distance that the slope gives, also where that overflows. -/
theorem getPrice_eq (hdata : getDecodedData data = .ok p) (hvalid : areParamsValid p = true)
    (hmax : p.maxPrice < uintBound) :
    getPrice timeElapsed data = .ok ((p.curve hvalid).value p.isDecreasing
      (WithTop.some (timeElapsed / p.bucketSize * p.slope))) := by
  obtain ⟨_, hslope, hbucket, hupper, hlower⟩ := areParamsValid_eq_true.mp hvalid
  have hbound : maxUint + 1 = uintBound := rfl
  rw [getPrice, hdata, ok_bind, require, if_pos hvalid, ok_bind, Checked.div_eq hbucket, ok_bind,
    Checked.div_eq hslope, ok_bind]
  generalize timeElapsed / p.bucketSize = bucket
  by_cases hover : maxUint / p.slope < bucket
  · have hlarge : maxUint < bucket * p.slope := (Nat.div_lt_iff_lt_mul hslope).mp hover
    have hbeyond : (p.curve hvalid).value p.isDecreasing (WithTop.some (bucket * p.slope)) =
        (p.curve hvalid).value p.isDecreasing ⊤ := by
      refine (p.curve hvalid).value_of_beyond ?_
      show if p.isDecreasing = true then p.initialPrice ≤ bucket * p.slope + p.minPrice
        else p.maxPrice ≤ p.initialPrice + bucket * p.slope
      split_ifs <;> omega
    rw [if_pos hover, hbeyond, ← getBoundaryPrice_eq]
    rfl
  · have hsmall : bucket * p.slope < uintBound := by
      have := mt (Nat.div_lt_iff_lt_mul hslope).mpr hover
      omega
    rw [if_neg hover, Checked.mul_eq hsmall, ok_bind]
    exact changePrice_eq (c := p.curve hvalid) hmax

/-- The price of the linear adapter, as a curve and as a clamped integer. -/
theorem getPrice_curve (hdata : getDecodedData data = .ok p) (hvalid : areParamsValid p = true)
    (hmax : p.maxPrice < uintBound) :
    Curve (getPrice · data) p.bucketSize p.minPrice p.maxPrice p.isDecreasing ∧
      ∀ {timeElapsed price}, getPrice timeElapsed data = .ok price →
        (price : Int) = max (p.minPrice : Int) (min (p.maxPrice : Int)
          (if p.isDecreasing = true then p.initialPrice - p.slope * (timeElapsed / p.bucketSize : Nat)
          else p.initialPrice + p.slope * (timeElapsed / p.bucketSize : Nat))) := by
  refine ⟨?_, fun {timeElapsed price} hprice => ?_⟩
  · refine Curve.of_distance (c := p.curve hvalid) (fun b d => d = WithTop.some (b * p.slope)) ?_
      fun timeElapsed => ⟨_, rfl, getPrice_eq hdata hvalid hmax⟩
    rintro b b' _ _ hle rfl rfl
    exact WithTop.coe_le_coe.mpr (Nat.mul_le_mul_right _ hle)
  · rw [getPrice_eq hdata hvalid hmax] at hprice
    obtain rfl := Except.ok.inj hprice
    rw [BoundedCurve.value_eq_clamp, Nat.mul_comm, Nat.cast_mul]
    rfl

end BoundedStepwiseLinearPriceAdapter

/-! ### The exponential and the logarithmic adapter -/

namespace BoundedStepwisePriceAdapter

/-- The parameters of both. -/
structure ScaledParams where
  initialPrice : Nat
  scalingFactor : Nat
  timeCoefficient : Nat
  bucketSize : Nat
  isDecreasing : Bool
  maxPrice : Nat
  minPrice : Nat

namespace ScaledParams

/-- What the parameters are as arguments of the contracts. -/
def words (p : ScaledParams) : List Nat :=
  [p.initialPrice, p.scalingFactor, p.timeCoefficient, p.bucketSize,
    Abi.encodeBool p.isDecreasing, p.maxPrice, p.minPrice]

def encode (p : ScaledParams) : Bytes := Abi.encodeWords p.words

def decode (data : Bytes) : Result ScaledParams := do
  require (224 ≤ data.length) ""
  let isDecreasing ← Abi.decodeBool (Abi.word data 128)
  pure ⟨Abi.word data 0, Abi.word data 32, Abi.word data 64, Abi.word data 96, isDecreasing,
    Abi.word data 160, Abi.word data 192⟩

def valid (p : ScaledParams) : Bool :=
  decide (0 < p.initialPrice ∧ 0 < p.scalingFactor ∧ 0 < p.timeCoefficient ∧ 0 < p.bucketSize ∧
    p.initialPrice ≤ p.maxPrice ∧ p.minPrice ≤ p.initialPrice)

theorem decode_encode {p : ScaledParams} (h : ∀ n ∈ p.words, n < uintBound) :
    decode p.encode = .ok p := by
  have hlength : 224 ≤ p.encode.length := (Abi.length_encodeWords p.words).ge
  have hword (i : Fin 7) : Abi.word p.encode (32 * i) = p.words.get i := Abi.word_encodeWords h i
  have hflag : Abi.word p.encode 128 = Abi.encodeBool p.isDecreasing := hword 4
  simp only [decode, bind_eq_ok, require_eq_ok, exists_const, pure_eq_ok]
  refine ⟨hlength, p.isDecreasing, hflag ▸ Abi.decodeBool_encodeBool _, ?_⟩
  rw [show Abi.word p.encode 0 = p.initialPrice from hword 0,
    show Abi.word p.encode 32 = p.scalingFactor from hword 1,
    show Abi.word p.encode 64 = p.timeCoefficient from hword 2,
    show Abi.word p.encode 96 = p.bucketSize from hword 3,
    show Abi.word p.encode 160 = p.maxPrice from hword 5,
    show Abi.word p.encode 192 = p.minPrice from hword 6]

variable {p : ScaledParams}

theorem valid_eq_true : p.valid = true ↔
    0 < p.initialPrice ∧ 0 < p.scalingFactor ∧ 0 < p.timeCoefficient ∧ 0 < p.bucketSize ∧
      p.initialPrice ≤ p.maxPrice ∧ p.minPrice ≤ p.initialPrice := decide_eq_true_iff

/-- The bounds of valid parameters. -/
def curve (p : ScaledParams) (h : p.valid = true) : BoundedCurve where
  start := p.initialPrice
  lower := p.minPrice
  upper := p.maxPrice
  lower_le := (valid_eq_true.mp h).2.2.2.2.2
  le_upper := (valid_eq_true.mp h).2.2.2.2.1

/-- How far the price is from its start in a bucket: a multiple of what the expression is above its
base at the scaled time, and infinitely far where the time is beyond the limit or the multiple
overflows. -/
def Distance (p : ScaledParams) (expression : Nat → Nat → Prop) (limit base bucket : Nat)
    (d : WithTop ℕ) : Prop :=
  if limit < p.timeCoefficient * bucket then d = ⊤
  else ∃ y, expression (p.timeCoefficient * bucket) y ∧
    d = if uintBound ≤ p.scalingFactor * y then ⊤
      else WithTop.some (p.scalingFactor * (y - base) / wad)

section Distance
variable {expression : Nat → Nat → Prop} {limit base b b' : Nat}

theorem distance_beyond (h : limit < p.timeCoefficient * b) :
    p.Distance expression limit base b ⊤ := by
  rw [Distance, if_pos h]

theorem distance_within {y : Nat} (h : p.timeCoefficient * b ≤ limit)
    (hy : expression (p.timeCoefficient * b) y) :
    p.Distance expression limit base b (if uintBound ≤ p.scalingFactor * y then ⊤
      else WithTop.some (p.scalingFactor * (y - base) / wad)) := by
  rw [Distance, if_neg (not_lt.mpr h)]
  exact ⟨y, hy, rfl⟩

/-- It grows with an expression that does. -/
theorem distance_mono {d d' : WithTop ℕ}
    (hmono : ∀ {x x' y y'}, x ≤ x' → expression x y → expression x' y' → y ≤ y') (hle : b ≤ b')
    (h : p.Distance expression limit base b d) (h' : p.Distance expression limit base b' d') :
    d ≤ d' := by
  have hscaled : p.timeCoefficient * b ≤ p.timeCoefficient * b' := Nat.mul_le_mul_left _ hle
  unfold Distance at h h'
  by_cases hlimit' : limit < p.timeCoefficient * b'
  · rw [if_pos hlimit'] at h'
    rw [h']
    exact le_top
  · rw [if_neg hlimit'] at h'
    rw [if_neg fun hlimit => hlimit' (hlimit.trans_le hscaled)] at h
    obtain ⟨y, hy, rfl⟩ := h
    obtain ⟨y', hy', rfl⟩ := h'
    have hgrows : y ≤ y' := hmono hscaled hy hy'
    by_cases hover' : uintBound ≤ p.scalingFactor * y'
    · rw [if_pos hover']
      exact le_top
    · have hover : ¬uintBound ≤ p.scalingFactor * y := fun hover =>
        hover' (hover.trans (Nat.mul_le_mul_left _ hgrows))
      rw [if_neg hover', if_neg hover]
      refine WithTop.coe_le_coe.mpr (Nat.div_le_div_right (Nat.mul_le_mul_left _ ?_))
      exact Nat.sub_le_sub_right hgrows _

end Distance

end ScaledParams

theorem toUint_natCast {n : Nat} (h : n < uintBound) : toUint n = n := by
  rw [toUint, Int.emod_eq_of_lt (Int.natCast_nonneg n) (by exact_mod_cast h), Int.toNat_natCast]

theorem natCast_fits {n : Nat} (h : (n : Int) < intBound) : n < uintBound :=
  Int.ofNat_lt.mp (h.trans (by decide))

/-- The test for an overflow by a division. -/
theorem overflow_iff {x y : Nat} (hpos : 0 < y) : maxUint / y < x ↔ uintBound ≤ x * y := by
  have hbound : maxUint + 1 = uintBound := rfl
  rw [Nat.div_lt_iff_lt_mul hpos]
  omega

/-- Where the bucket is not caught, the scaled time is an `int256`. -/
theorem product_fits {coefficient bucket : Nat} (hpos : 0 < coefficient)
    (h : ¬maxInt / coefficient < bucket) :
    coefficient * bucket < uintBound ∧
      wrapInt (coefficient * bucket : Nat) = (coefficient * bucket : Nat) := by
  have hle : bucket * coefficient ≤ maxInt := not_lt.mp (mt (Nat.div_lt_iff_lt_mul hpos).mpr h)
  rw [Nat.mul_comm] at hle
  have hmax : (maxInt : Int) < intBound := by decide
  refine ⟨hle.trans_lt (by decide), wrapInt_of_in ⟨?_, ?_⟩⟩
  · have := intBound_pos
    omega
  · exact (Int.ofNat_le.mpr hle).trans_lt hmax

end BoundedStepwisePriceAdapter

namespace BoundedStepwiseExponentialPriceAdapter

/-- Above it the exponential would overflow or be inexact. -/
def maxExpArg : Nat := 100 * 10 ^ 18

def getEncodedData (p : ScaledParams) : Bytes := p.encode

def getDecodedData (data : Bytes) : Result ScaledParams := ScaledParams.decode data

def areParamsValid (p : ScaledParams) : Bool := p.valid

def getPrice (lib : FixedPointMathLib) (timeElapsed : Nat) (data : Bytes) : Result Nat := do
  let p ← getDecodedData data
  require (areParamsValid p = true) "BoundedStepwiseExponentialPriceAdapter: Invalid params"
  let boundaryPrice := getBoundaryPrice p.isDecreasing p.maxPrice p.minPrice
  let timeBucket ← Checked.div timeElapsed p.bucketSize
  let maxBucket ← Checked.div maxInt p.timeCoefficient
  if maxBucket < timeBucket then pure boundaryPrice
  else
    let product ← Checked.mul p.timeCoefficient timeBucket
    let expArgument := wrapInt product
    if (maxExpArg : Int) < expArgument then pure boundaryPrice
    else
      let exponential ← lib.expWad expArgument
      let expExpression := toUint exponential
      let maxScalingFactor ← Checked.div maxUint expExpression
      if maxScalingFactor < p.scalingFactor then pure boundaryPrice
      else
        let growth ← Checked.sub expExpression wad
        let priceChange ← lib.mulWad p.scalingFactor growth
        changePrice p.isDecreasing p.initialPrice p.maxPrice p.minPrice priceChange

def isPriceAdapterConfigDataValid (data : Bytes) : Result Bool := do
  let p ← getDecodedData data
  pure (areParamsValid p)

variable {lib : FixedPointMathLib} {p : ScaledParams} {data : Bytes}

theorem maxExpArg_lt : maxExpArg < maxInt := by decide

/-- What the library returns. -/
def Exponential (lib : FixedPointMathLib) (x y : Nat) : Prop := lib.expWad x = .ok (y : Int)

theorem getPrice_eq (hlib : lib.Sound) (hdata : getDecodedData data = .ok p)
    (hvalid : p.valid = true) (hmax : p.maxPrice < uintBound) (timeElapsed : Nat) :
    ∃ d, p.Distance (Exponential lib) maxExpArg wad (timeElapsed / p.bucketSize) d ∧
      getPrice lib timeElapsed data = .ok ((p.curve hvalid).value p.isDecreasing d) := by
  obtain ⟨_, hscaling, hcoefficient, hbucket, _, _⟩ := ScaledParams.valid_eq_true.mp hvalid
  have hboundary := getBoundaryPrice_eq (p.curve hvalid) p.isDecreasing
  rw [getPrice, hdata, ok_bind, require, if_pos (show areParamsValid p = true from hvalid), ok_bind,
    Checked.div_eq hbucket, ok_bind, Checked.div_eq hcoefficient, ok_bind]
  generalize timeElapsed / p.bucketSize = bucket
  by_cases hlate : maxInt / p.timeCoefficient < bucket
  · have hbeyond : maxExpArg < p.timeCoefficient * bucket := by
      rw [Nat.mul_comm]
      exact maxExpArg_lt.trans ((Nat.div_lt_iff_lt_mul hcoefficient).mp hlate)
    refine ⟨⊤, ScaledParams.distance_beyond hbeyond, ?_⟩
    rw [if_pos hlate, ← hboundary]
    rfl
  · obtain ⟨hproduct, hargument⟩ := product_fits hcoefficient hlate
    rw [if_neg hlate, Checked.mul_eq hproduct, ok_bind, hargument]
    by_cases hbeyond : (maxExpArg : Int) < (p.timeCoefficient * bucket : Nat)
    · refine ⟨⊤, ScaledParams.distance_beyond (Int.ofNat_lt.mp hbeyond), ?_⟩
      rw [if_pos hbeyond, ← hboundary]
      rfl
    · obtain ⟨y, hy, hwad, hfits⟩ := hlib.expWad _ (Int.natCast_nonneg _)
        ((not_lt.mp hbeyond).trans_lt (by decide))
      obtain ⟨n, rfl⟩ := Int.eq_ofNat_of_zero_le ((Int.natCast_nonneg _).trans hwad)
      have hwad' : wad ≤ n := Int.ofNat_le.mp hwad
      have hpos : 0 < n := (show 0 < wad by decide).trans_le hwad'
      refine ⟨_, ScaledParams.distance_within (Int.ofNat_le.mp (not_lt.mp hbeyond)) hy, ?_⟩
      rw [if_neg hbeyond, hy, ok_bind, toUint_natCast (natCast_fits hfits)]
      dsimp only
      rw [Checked.div_eq hpos, ok_bind]
      by_cases hover : maxUint / n < p.scalingFactor
      · rw [if_pos hover, if_pos ((overflow_iff hpos).mp hover), ← hboundary]
        rfl
      · have hfit : ¬uintBound ≤ p.scalingFactor * n := mt (overflow_iff hpos).mpr hover
        have hgrowth : p.scalingFactor * (n - wad) < uintBound :=
          (Nat.mul_le_mul_left _ (Nat.sub_le n wad)).trans_lt (not_le.mp hfit)
        rw [if_neg hover, if_neg hfit, Checked.sub_eq hwad', ok_bind, hlib.mulWad _ _ hgrowth, ok_bind]
        exact changePrice_eq (c := p.curve hvalid) hmax

theorem getPrice_curve (hlib : lib.Sound) (hdata : getDecodedData data = .ok p)
    (hvalid : p.valid = true) (hmax : p.maxPrice < uintBound) :
    Curve (getPrice lib · data) p.bucketSize p.minPrice p.maxPrice p.isDecreasing := by
  refine Curve.of_distance (c := p.curve hvalid) (p.Distance (Exponential lib) maxExpArg wad)
    (fun {b b' d d'} => ScaledParams.distance_mono ?_) (getPrice_eq hlib hdata hvalid hmax)
  intro x x' y y' hle hy hy'
  exact Int.ofNat_le.mp (hlib.expWad_mono (Int.natCast_nonneg x) (Int.ofNat_le.mpr hle) hy hy')

end BoundedStepwiseExponentialPriceAdapter

namespace BoundedStepwiseLogarithmicPriceAdapter

/-- Above it the argument of the logarithm would overflow. -/
def maxLogArg : Nat := 2 ^ 254 - 1

def getEncodedData (p : ScaledParams) : Bytes := p.encode

def getDecodedData (data : Bytes) : Result ScaledParams := ScaledParams.decode data

def areParamsValid (p : ScaledParams) : Bool := p.valid

def getPrice (lib : FixedPointMathLib) (timeElapsed : Nat) (data : Bytes) : Result Nat := do
  let p ← getDecodedData data
  require (areParamsValid p = true) "BoundedStepwiseLogarithmicPriceAdapter: Invalid params"
  let boundaryPrice := getBoundaryPrice p.isDecreasing p.maxPrice p.minPrice
  let timeBucket ← Checked.div timeElapsed p.bucketSize
  let maxBucket ← Checked.div maxInt p.timeCoefficient
  if maxBucket < timeBucket then pure boundaryPrice
  else
    let product ← Checked.mul timeBucket p.timeCoefficient
    let lnArgument := wrapInt product
    if (maxLogArg : Int) < lnArgument then pure boundaryPrice
    else
      let shifted ← Checked.addInt lnArgument wad
      let logarithm ← lib.lnWad shifted
      let lnExpression := toUint logarithm
      let maxExpression ← Checked.div maxUint p.scalingFactor
      if maxExpression < lnExpression then pure boundaryPrice
      else
        let priceChange ← lib.mulWad p.scalingFactor lnExpression
        changePrice p.isDecreasing p.initialPrice p.maxPrice p.minPrice priceChange

def isPriceAdapterConfigDataValid (data : Bytes) : Result Bool := do
  let p ← getDecodedData data
  pure (areParamsValid p)

variable {lib : FixedPointMathLib} {p : ScaledParams} {data : Bytes}

theorem maxLogArg_lt : maxLogArg < maxInt := by decide

/-- What the library returns, for a time from one on. -/
def Logarithm (lib : FixedPointMathLib) (x y : Nat) : Prop := lib.lnWad (x + wad : Nat) = .ok (y : Int)

theorem shifted_fits {x : Nat} (h : x ≤ maxLogArg) : ((x + wad : Nat) : Int) < intBound := by
  have hsum : ((maxLogArg + wad : Nat) : Int) < intBound := by decide
  exact (Int.ofNat_le.mpr (Nat.add_le_add_right h wad)).trans_lt hsum

theorem shifted_in {x : Nat} (h : ((x + wad : Nat) : Int) < intBound) :
    InInt256 ((x : Int) + (wad : Nat)) := by
  refine ⟨?_, Nat.cast_add (R := Int) x wad ▸ h⟩
  have := intBound_pos
  have := Int.natCast_nonneg wad
  omega

theorem getPrice_eq (hlib : lib.Sound) (hdata : getDecodedData data = .ok p)
    (hvalid : p.valid = true) (hmax : p.maxPrice < uintBound) (timeElapsed : Nat) :
    ∃ d, p.Distance (Logarithm lib) maxLogArg 0 (timeElapsed / p.bucketSize) d ∧
      getPrice lib timeElapsed data = .ok ((p.curve hvalid).value p.isDecreasing d) := by
  obtain ⟨_, hscaling, hcoefficient, hbucket, _, _⟩ := ScaledParams.valid_eq_true.mp hvalid
  have hboundary := getBoundaryPrice_eq (p.curve hvalid) p.isDecreasing
  rw [getPrice, hdata, ok_bind, require, if_pos (show areParamsValid p = true from hvalid), ok_bind,
    Checked.div_eq hbucket, ok_bind, Checked.div_eq hcoefficient, ok_bind]
  generalize timeElapsed / p.bucketSize = bucket
  by_cases hlate : maxInt / p.timeCoefficient < bucket
  · have hbeyond : maxLogArg < p.timeCoefficient * bucket := by
      rw [Nat.mul_comm]
      exact maxLogArg_lt.trans ((Nat.div_lt_iff_lt_mul hcoefficient).mp hlate)
    refine ⟨⊤, ScaledParams.distance_beyond hbeyond, ?_⟩
    rw [if_pos hlate, ← hboundary]
    rfl
  · obtain ⟨hproduct, hargument⟩ := product_fits hcoefficient hlate
    have hmul : Checked.mul bucket p.timeCoefficient = .ok (p.timeCoefficient * bucket) := by
      rw [Checked.mul, Nat.mul_comm bucket]
      exact if_pos hproduct
    rw [if_neg hlate, hmul, ok_bind, hargument]
    by_cases hbeyond : (maxLogArg : Int) < (p.timeCoefficient * bucket : Nat)
    · refine ⟨⊤, ScaledParams.distance_beyond (Int.ofNat_lt.mp hbeyond), ?_⟩
      rw [if_pos hbeyond, ← hboundary]
      rfl
    · have hwithin := Int.ofNat_le.mp (not_lt.mp hbeyond)
      have hshifted := shifted_fits hwithin
      have hfrom : (wad : Int) ≤ (p.timeCoefficient * bucket + wad : Nat) :=
        Int.ofNat_le.mpr (Nat.le_add_left _ _)
      obtain ⟨y, hy, hnonneg, hfits⟩ := hlib.lnWad _ hfrom hshifted
      obtain ⟨n, rfl⟩ := Int.eq_ofNat_of_zero_le hnonneg
      refine ⟨_, ScaledParams.distance_within hwithin hy, ?_⟩
      rw [if_neg hbeyond, Checked.addInt_eq (shifted_in hshifted), ok_bind, ← Nat.cast_add, hy, ok_bind,
        toUint_natCast (natCast_fits hfits)]
      dsimp only
      rw [Checked.div_eq hscaling, ok_bind]
      by_cases hover : maxUint / p.scalingFactor < n
      · rw [if_pos hover, if_pos (Nat.mul_comm n _ ▸ (overflow_iff hscaling).mp hover), ← hboundary]
        rfl
      · have hfit : ¬uintBound ≤ p.scalingFactor * n := by
          rw [Nat.mul_comm]
          exact mt (overflow_iff hscaling).mpr hover
        rw [if_neg hover, if_neg hfit, hlib.mulWad _ _ (not_le.mp hfit), ok_bind, Nat.sub_zero]
        exact changePrice_eq (c := p.curve hvalid) hmax

theorem getPrice_curve (hlib : lib.Sound) (hdata : getDecodedData data = .ok p)
    (hvalid : p.valid = true) (hmax : p.maxPrice < uintBound) :
    Curve (getPrice lib · data) p.bucketSize p.minPrice p.maxPrice p.isDecreasing := by
  refine Curve.of_distance (c := p.curve hvalid) (p.Distance (Logarithm lib) maxLogArg 0)
    (fun {b b' d d'} => ScaledParams.distance_mono ?_) (getPrice_eq hlib hdata hvalid hmax)
  intro x x' y y' hle hy hy'
  have hfrom : (wad : Int) ≤ (x + wad : Nat) := Int.ofNat_le.mpr (Nat.le_add_left _ _)
  have hshifted : ((x + wad : Nat) : Int) ≤ (x' + wad : Nat) :=
    Int.ofNat_le.mpr (Nat.add_le_add_right hle wad)
  exact Int.ofNat_le.mp (hlib.lnWad_mono hfrom hshifted hy hy')

end BoundedStepwiseLogarithmicPriceAdapter

namespace BoundedStepwisePriceAdapter

/-- **Price curves are total, bounded and monotone.** For every parameters that an adapter accepts, a
price is returned at every time. It is within its bounds, moves in one direction, and only from
one bucket to the next; that of the linear adapter is the exact one put between the bounds. -/
theorem prices_bounded {lib : FixedPointMathLib} (hlib : lib.Sound) :
    (∀ p : BoundedStepwiseLinearPriceAdapter.Params, (∀ n ∈ p.words, n < uintBound) →
      BoundedStepwiseLinearPriceAdapter.areParamsValid p = true →
        Curve (BoundedStepwiseLinearPriceAdapter.getPrice ·
          (BoundedStepwiseLinearPriceAdapter.getEncodedData p)) p.bucketSize p.minPrice p.maxPrice
          p.isDecreasing ∧
        ∀ {timeElapsed price}, BoundedStepwiseLinearPriceAdapter.getPrice timeElapsed
            (BoundedStepwiseLinearPriceAdapter.getEncodedData p) = .ok price →
          (price : Int) = max (p.minPrice : Int) (min (p.maxPrice : Int)
            (if p.isDecreasing = true then
              p.initialPrice - p.slope * (timeElapsed / p.bucketSize : Nat)
            else p.initialPrice + p.slope * (timeElapsed / p.bucketSize : Nat)))) ∧
    (∀ p : ScaledParams, (∀ n ∈ p.words, n < uintBound) →
      BoundedStepwiseExponentialPriceAdapter.areParamsValid p = true →
        Curve (BoundedStepwiseExponentialPriceAdapter.getPrice lib ·
          (BoundedStepwiseExponentialPriceAdapter.getEncodedData p)) p.bucketSize p.minPrice
          p.maxPrice p.isDecreasing) ∧
    ∀ p : ScaledParams, (∀ n ∈ p.words, n < uintBound) →
      BoundedStepwiseLogarithmicPriceAdapter.areParamsValid p = true →
        Curve (BoundedStepwiseLogarithmicPriceAdapter.getPrice lib ·
          (BoundedStepwiseLogarithmicPriceAdapter.getEncodedData p)) p.bucketSize p.minPrice
          p.maxPrice p.isDecreasing := by
  refine ⟨fun p hwords hvalid => ?_, fun p hwords hvalid => ?_, fun p hwords hvalid => ?_⟩
  · exact BoundedStepwiseLinearPriceAdapter.getPrice_curve
      (BoundedStepwiseLinearPriceAdapter.getDecodedData_getEncodedData hwords) hvalid
      (hwords _ (by simp [BoundedStepwiseLinearPriceAdapter.Params.words]))
  · exact BoundedStepwiseExponentialPriceAdapter.getPrice_curve hlib
      (ScaledParams.decode_encode hwords) hvalid (hwords _ (by simp [ScaledParams.words]))
  · exact BoundedStepwiseLogarithmicPriceAdapter.getPrice_curve hlib
      (ScaledParams.decode_encode hwords) hvalid (hwords _ (by simp [ScaledParams.words]))

/-- The values of the library at the start of an auction and a fifth of a percent later. -/
def exampleLib : FixedPointMathLib where
  expWad := fun x => pure (if x < 2 * 10 ^ 15 then wad else 1002002001334000266)
  lnWad := fun x => pure (if x < 1002 * 10 ^ 15 then 0 else 1998002662673056)
  mulWad := fun x y => do
    require (x * y < uintBound) "MulWadFailed()"
    pure (x * y / wad)

theorem exampleLib_sound : exampleLib.Sound where
  expWad x _ _ := by
    refine ⟨_, rfl, ?_⟩
    split_ifs <;> decide
  expWad_mono _ hle hy hy' := by
    obtain rfl := pure_eq_ok.mp hy
    obtain rfl := pure_eq_ok.mp hy'
    have hlater : (wad : Int) ≤ 1002002001334000266 := by decide
    split_ifs <;> omega
  lnWad x _ _ := by
    refine ⟨_, rfl, ?_⟩
    split_ifs <;> decide
  lnWad_mono _ hle hy hy' := by
    obtain rfl := pure_eq_ok.mp hy
    obtain rfl := pure_eq_ok.mp hy'
    split_ifs <;> omega
  mulWad x y h := by
    show (do
      require (x * y < uintBound) "MulWadFailed()"
      pure (x * y / wad)) = _
    rw [require, if_pos h]
    rfl

/-- From a hundred down to fifty, in buckets of a minute. -/
def exampleParams : ScaledParams := ⟨100, 5000, 10 ^ 15, 60, true, 200, 50⟩

/-- The same with a slope of five, which ends at fifty after ten minutes. -/
def exampleLinear : BoundedStepwiseLinearPriceAdapter.Params := ⟨100, 5, 60, true, 200, 50⟩

theorem prices_bounded_example :
    (BoundedStepwiseLinearPriceAdapter.getPrice 125
        (BoundedStepwiseLinearPriceAdapter.getEncodedData exampleLinear) = .ok 90 ∧
      BoundedStepwiseLinearPriceAdapter.getPrice 660
        (BoundedStepwiseLinearPriceAdapter.getEncodedData exampleLinear) = .ok 50 ∧
      Curve (BoundedStepwiseLinearPriceAdapter.getPrice ·
        (BoundedStepwiseLinearPriceAdapter.getEncodedData exampleLinear)) 60 50 200 true) ∧
    (BoundedStepwiseExponentialPriceAdapter.getPrice exampleLib 59
        (BoundedStepwiseExponentialPriceAdapter.getEncodedData exampleParams) = .ok 100 ∧
      BoundedStepwiseExponentialPriceAdapter.getPrice exampleLib 125
        (BoundedStepwiseExponentialPriceAdapter.getEncodedData exampleParams) = .ok 90 ∧
      Curve (BoundedStepwiseExponentialPriceAdapter.getPrice exampleLib ·
        (BoundedStepwiseExponentialPriceAdapter.getEncodedData exampleParams)) 60 50 200 true) ∧
    BoundedStepwiseLogarithmicPriceAdapter.getPrice exampleLib 125
        (BoundedStepwiseLogarithmicPriceAdapter.getEncodedData exampleParams) = .ok 91 ∧
      Curve (BoundedStepwiseLogarithmicPriceAdapter.getPrice exampleLib ·
        (BoundedStepwiseLogarithmicPriceAdapter.getEncodedData exampleParams)) 60 50 200 true := by
  obtain ⟨hlinear, hexponential, hlogarithmic⟩ := prices_bounded exampleLib_sound
  refine ⟨⟨by decide +kernel, by decide +kernel, ?_⟩, ⟨by decide +kernel, by decide +kernel, ?_⟩,
    by decide +kernel, ?_⟩
  · exact (hlinear exampleLinear (by decide) (by decide)).1
  · exact hexponential exampleParams (by decide) (by decide)
  · exact hlogarithmic exampleParams (by decide) (by decide)

end BoundedStepwisePriceAdapter

end IndexProtocol
