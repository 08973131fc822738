import IndexProtocol.SetToken.Privileged
import Mathlib.Algebra.BigOperators.Ring.List

/-! The valuer of SetTokens.

A position is valued at the price that an oracle gives in its master quote asset. The values of
all components are added up, and a sum or the value of one component is then expressed in the
asset asked for. The sum is rounded once then and each component for itself, so that the components
are together worth what the SetToken is, or less by a fraction for each. -/
namespace IndexProtocol
open Evm PreciseUnitMath

/-- Prices in precise units, of a token in another. -/
structure PriceOracle where
  masterQuoteAsset : Address
  getPrice : Address → Address → Result Nat

namespace SetValuer
variable (decimals : Address → Nat) (oracle : PriceOracle) (s : SetToken)

/-- The value of a component in the master quote asset. -/
def valuation (component : Address) : Result Int := do
  let componentPrice ← oracle.getPrice component oracle.masterQuoteAsset
  let aggregateUnits ← s.getTotalComponentRealUnits component
  let baseUnits ← SafeCast.toInt256 (10 ^ decimals component % uintBound)
  let normalizedUnits ← preciseDivInt aggregateUnits baseUnits
  let price ← SafeCast.toInt256 componentPrice
  preciseMulInt normalizedUnits price

/-- A value of the master quote asset in another asset. -/
def inQuoteAsset (quoteAsset : Address) (valuation : Int) : Result Int := do
  if oracle.masterQuoteAsset ≠ quoteAsset then
    let quoteToMaster ← oracle.getPrice quoteAsset oracle.masterQuoteAsset
    let price ← SafeCast.toInt256 quoteToMaster
    preciseDivInt valuation price
  else pure valuation

def calculateSetTokenValuation (quoteAsset : Address) : Result Nat := do
  let sum ← runs (fun sum component => do
      let value ← valuation decimals oracle s component
      SignedSafeMath.add value sum)
    0 s.components
  let value ← inQuoteAsset oracle quoteAsset sum
  SafeCast.toUint256 value

def calculateComponentValuation (component quoteAsset : Address) : Result Nat := do
  require (s.isComponent component = true) "Component not in SetToken"
  let value ← valuation decimals oracle s component
  let value ← inQuoteAsset oracle quoteAsset value
  SafeCast.toUint256 value

/-! ### The components and the whole -/

variable {decimals oracle s} {quoteAsset : Address}

theorem valuation_nonneg {component : Address} {value : Int}
    (hunits : ∀ units, s.getTotalComponentRealUnits component = .ok units → 0 ≤ units)
    (h : valuation decimals oracle s component = .ok value) : 0 ≤ value := by
  simp only [valuation, bind_eq_ok, SafeCast.toInt256_eq_ok, preciseDivInt_eq_ok,
    preciseMulInt_eq_ok] at h
  obtain ⟨price, _, units, hunit, _, ⟨_, rfl⟩, _, ⟨_, _, rfl⟩, _, ⟨_, rfl⟩, _, rfl⟩ := h
  have hscaled : 0 ≤ units * preciseUnitInt := Int.mul_nonneg (hunits units hunit) (by decide)
  have hnormalized := Int.tdiv_nonneg hscaled (Int.natCast_nonneg (10 ^ decimals component % uintBound))
  exact Int.tdiv_nonneg (Int.mul_nonneg hnormalized (Int.natCast_nonneg price)) (by decide)

/-- The loop over the components adds up their values. -/
theorem valuations_added {components : List Address} {start sum : Int}
    (hunits : ∀ component ∈ components, ∀ units,
      s.getTotalComponentRealUnits component = .ok units → 0 ≤ units)
    (h : runs (fun sum component => do
        let value ← valuation decimals oracle s component
        SignedSafeMath.add value sum)
      start components = .ok sum) :
    ∃ values : List Nat, List.Forall₂
        (fun component (value : Nat) => valuation decimals oracle s component = .ok (value : Int))
        components values ∧
      sum = start + values.sum := by
  induction components generalizing start with
  | nil =>
    obtain rfl : start = sum := by simpa using h
    exact ⟨[], .nil, (Int.add_zero start).symm⟩
  | cons component rest ih =>
    obtain ⟨next, hnext, hrest⟩ := (runs_cons_eq_ok _).mp h
    simp only [bind_eq_ok, SignedSafeMath.add_eq_ok] at hnext
    obtain ⟨value, hvalue, _, rfl⟩ := hnext
    obtain ⟨values, hvalues, rfl⟩ :=
      ih (fun c hc => hunits c (List.mem_cons_of_mem _ hc)) hrest
    have hnonneg := valuation_nonneg (hunits component List.mem_cons_self) hvalue
    obtain ⟨value, rfl⟩ := Int.eq_ofNat_of_zero_le hnonneg
    refine ⟨value :: values, .cons hvalue hvalues, ?_⟩
    rw [List.sum_cons, Nat.cast_add]
    omega

/-- Values are expressed in another asset by one factor, the result rounded down. -/
theorem inQuoteAsset_scaled {sum : Nat} {value : Int}
    (h : inQuoteAsset oracle quoteAsset sum = .ok value) :
    ∃ n d : Nat, 0 < d ∧ value = (sum * n / d : Nat) ∧
      ∀ part ≤ sum, inQuoteAsset oracle quoteAsset part = .ok (part * n / d : Nat) := by
  by_cases hquote : oracle.masterQuoteAsset = quoteAsset
  · have hsame : ∀ part : Int, inQuoteAsset oracle quoteAsset part = .ok part :=
      fun part => if_neg (not_not.mpr hquote)
    obtain rfl := Except.ok.inj ((hsame sum).symm.trans h)
    refine ⟨1, 1, Nat.one_pos, by rw [Nat.mul_one, Nat.div_one], fun part _ => ?_⟩
    rw [hsame, Nat.mul_one, Nat.div_one]
  · simp only [inQuoteAsset, ne_eq, hquote, not_false_eq_true, if_true, bind_eq_ok,
      SafeCast.toInt256_eq_ok, preciseDivInt_eq_ok] at h ⊢
    obtain ⟨price, hprice, _, ⟨hfits, rfl⟩, hin, hne, rfl⟩ := h
    have hpos : 0 < price := Nat.pos_of_ne_zero fun hzero => hne (by rw [hzero, Nat.cast_zero])
    have hscaled : ∀ part : Nat, (part : Int) * preciseUnitInt = (part * preciseUnit : Nat) :=
      fun part => by rw [Nat.cast_mul, preciseUnit_cast]
    rw [hscaled] at hin ⊢
    refine ⟨preciseUnit, price, hpos, (Int.ofNat_tdiv _ _).symm, fun part hle => ?_⟩
    have hle' : part * preciseUnit ≤ sum * preciseUnit := Nat.mul_le_mul_right _ hle
    refine ⟨price, hprice, price, ⟨hfits, rfl⟩, ⟨?_, ?_⟩, hne, ?_⟩
    · rw [hscaled]
      exact (neg_nonpos.mpr intBound_pos.le).trans (Int.natCast_nonneg _)
    · rw [hscaled]
      exact (Int.ofNat_le.mpr hle').trans_lt hin.2
    · rw [hscaled, Int.ofNat_tdiv]

/-- The components in the order of the loop, each expressed in the other asset for itself. -/
theorem calculateComponentValuations {components : List Address} {values : List Nat} {n d : Nat}
    (hmem : ∀ component ∈ components, s.isComponent component = true)
    (hvalues : List.Forall₂
      (fun component (value : Nat) => valuation decimals oracle s component = .ok (value : Int))
      components values)
    (hparts : ∀ part ∈ values, inQuoteAsset oracle quoteAsset part = .ok (part * n / d : Nat)) :
    List.Forall₂
      (fun component value =>
        calculateComponentValuation decimals oracle s component quoteAsset = .ok value)
      components (values.map fun part => part * n / d) := by
  induction hvalues with
  | nil => exact .nil
  | cons hvalue _ ih =>
    refine .cons ?_ (ih (fun c hc => hmem c (List.mem_cons_of_mem _ hc))
      fun part hpart => hparts part (List.mem_cons_of_mem _ hpart))
    simp only [calculateComponentValuation, bind_eq_ok, require_eq_ok, exists_const,
      SafeCast.toUint256_eq_ok]
    exact ⟨hmem _ List.mem_cons_self, _, hvalue, _, hparts _ List.mem_cons_self, rfl⟩

/-- **The components and the whole.** Where the SetToken has a value, so has each component, and
together they are worth no more, and less by less than one for each. -/
theorem componentValuations_sum {total : Nat}
    (hunits : ∀ component ∈ s.components, ∀ units,
      s.getTotalComponentRealUnits component = .ok units → 0 ≤ units)
    (h : calculateSetTokenValuation decimals oracle s quoteAsset = .ok total) :
    ∃ values, s.components.mapM
        (fun component => calculateComponentValuation decimals oracle s component quoteAsset) =
          .ok values ∧
      values.sum ≤ total ∧ (s.components ≠ [] → total < values.sum + s.components.length) := by
  simp only [calculateSetTokenValuation, bind_eq_ok, SafeCast.toUint256_eq_ok] at h
  obtain ⟨sum, hsum, value, hvalue, rfl⟩ := h
  obtain ⟨values, hvalues, rfl⟩ := valuations_added hunits hsum
  rw [Int.zero_add] at hvalue
  obtain ⟨n, d, hd, htotal, hparts⟩ := inQuoteAsset_scaled hvalue
  obtain rfl := Nat.cast_injective htotal
  have hsplit : values.sum * n = (values.map (· * n)).sum := by
    rw [List.sum_map_mul_right, List.map_id']
  have hquotients : values.map (fun part => part * n / d) = (values.map (· * n)).map (· / d) := by
    rw [List.map_map]
    rfl
  have hcomponents := calculateComponentValuations (fun c hc => SetToken.isComponent_eq_true.mpr hc)
    hvalues fun part hpart => hparts part (List.single_le_sum (fun _ _ => Nat.zero_le _) part hpart)
  refine ⟨_, mapM_eq_ok.mpr hcomponents, ?_, fun hne => ?_⟩
  · rw [hsplit, hquotients]
    exact Rounding.sum_floor_le _ hd
  · have hne' : values.map (· * n) ≠ [] := by
      rw [Ne, ← List.length_eq_zero_iff, List.length_map, ← hvalues.length_eq,
        List.length_eq_zero_iff]
      exact hne
    have hlt := Rounding.sum_floor_lt hne' hd
    rwa [List.length_map, ← hvalues.length_eq, ← hsplit, ← hquotients] at hlt

end SetValuer

end IndexProtocol
