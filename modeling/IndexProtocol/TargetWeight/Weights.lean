import IndexProtocol.TargetWeight.Extension
import Mathlib.Algebra.BigOperators.Group.Finset.Basic
import Mathlib.Algebra.Order.BigOperators.Group.Finset

/-! Weights that add up to one at most.

The weight of an asset is its value over the value of the SetToken, rounded down. Distinct assets
are together worth no more than the components, which are worth no more than the SetToken. -/
namespace IndexProtocol
open Evm PreciseUnitMath

/-- Distinct elements sum to no more than a list of all that count. -/
theorem sum_le_of_listed {α : Type} [DecidableEq α] {f : α → Nat} {as bs : List α}
    (hnodup : as.Nodup) (hlisted : ∀ a ∈ as, f a ≠ 0 → a ∈ bs) :
    (as.map f).sum ≤ (bs.map f).sum :=
  calc (as.map f).sum = ∑ a ∈ as.toFinset, f a := (List.sum_toFinset f hnodup).symm
    _ ≤ ∑ b ∈ bs.dedup.toFinset, f b := by
      refine Finset.sum_le_sum_of_ne_zero fun a ha hne => ?_
      rw [List.mem_toFinset] at ha ⊢
      exact List.mem_dedup.mpr (hlisted a ha hne)
    _ = (bs.dedup.map f).sum := List.sum_toFinset f (List.nodup_dedup bs)
    _ ≤ (bs.map f).sum :=
      ((List.dedup_sublist bs).map f).sum_le_sum fun _ _ => Nat.zero_le _

namespace TargetWeightWrapExtension
variable {χ : Type} {decimals : Address → Nat} {w : WeightWorld χ} {targetAsset : Address}

/-- Both weights at once are each of them. -/
theorem getTargetAssetAndReserveWeight_eq_ok {targetAssetWeight reserveWeight : Nat} :
    getTargetAssetAndReserveWeight decimals w targetAsset = .ok (targetAssetWeight, reserveWeight) ↔
      getTargetAssetWeight decimals w targetAsset = .ok targetAssetWeight ∧
        getReserveWeight decimals w = .ok reserveWeight := by
  simp only [getTargetAssetAndReserveWeight, getTargetAssetWeight, getReserveWeight, bind_eq_ok,
    pure_eq_ok, Prod.mk.injEq]
  constructor
  · rintro ⟨v, hv, r, hr, total, htotal, _, htarget, _, hreserve, rfl, rfl⟩
    exact ⟨⟨v, hv, total, htotal, htarget⟩, r, hr, total, htotal, hreserve⟩
  · rintro ⟨⟨v, hv, total, htotal, htarget⟩, r, hr, total', htotal', hreserve⟩
    obtain rfl := Except.ok.inj (htotal.symm.trans htotal')
    exact ⟨v, hv, r, hr, total, htotal, _, htarget, _, hreserve, rfl, rfl⟩

/-- The value of an asset as a number, zero where there is none. -/
def valueOf (decimals : Address → Nat) (w : WeightWorld χ) (asset : Address) : Nat :=
  (getAssetValuation decimals w asset).toOption.getD 0

theorem valueOf_eq {asset : Address} {value : Nat}
    (h : getAssetValuation decimals w asset = .ok value) : valueOf decimals w asset = value := by
  rw [valueOf, h]
  rfl

/-- Only components are worth something. -/
theorem valueOf_listed {asset : Address} (hne : valueOf decimals w asset ≠ 0) :
    asset ∈ w.around.setToken.components := by
  by_contra hmem
  have hnot : ¬w.around.setToken.isComponent asset = true :=
    fun h => hmem (SetToken.isComponent_eq_true.mp h)
  exact hne (valueOf_eq (if_neg hnot))

/-- Distinct assets are worth no more than the SetToken. -/
theorem valueOf_sum_le {assets : List Address} {total : Nat}
    (hunits : ∀ component ∈ w.around.setToken.components, ∀ units,
      w.around.setToken.getTotalComponentRealUnits component = .ok units → 0 ≤ units)
    (hnodup : assets.Nodup) (htotal : getTotalValuation decimals w = .ok total) :
    (assets.map (valueOf decimals w)).sum ≤ total := by
  obtain ⟨values, hvalues, hle, _⟩ := SetValuer.componentValuations_sum hunits htotal
  have heq : values = w.around.setToken.components.map (valueOf decimals w) := by
    refine mapM_eq_ok_map hvalues fun component hc value hvalue => valueOf_eq ?_
    exact (if_pos (SetToken.isComponent_eq_true.mpr hc)).trans hvalue
  rw [heq] at hle
  exact (sum_le_of_listed hnodup fun _ _ hne => valueOf_listed hne).trans hle

theorem getTargetAssetWeight_eq {total weight : Nat}
    (htotal : getTotalValuation decimals w = .ok total)
    (h : getTargetAssetWeight decimals w targetAsset = .ok weight) :
    0 < total ∧ valueOf decimals w targetAsset * preciseUnit / total = weight := by
  simp only [getTargetAssetWeight, htotal, bind_eq_ok, preciseDiv_eq_ok] at h
  obtain ⟨value, hvalue, _, htotal', _, hpos, rfl⟩ := h
  obtain rfl := Except.ok.inj htotal'
  rw [valueOf_eq hvalue]
  exact ⟨hpos, rfl⟩

/-- Distinct assets weigh one at most. -/
theorem weights_sum_le {assets : List Address} {weights : List Nat}
    (hunits : ∀ component ∈ w.around.setToken.components, ∀ units,
      w.around.setToken.getTotalComponentRealUnits component = .ok units → 0 ≤ units)
    (hnodup : assets.Nodup) (h : assets.mapM (getTargetAssetWeight decimals w) = .ok weights) :
    weights.sum ≤ preciseUnit := by
  cases assets with
  | nil =>
    rw [List.mapM_nil, pure_eq_ok] at h
    rw [← h]
    exact Nat.zero_le _
  | cons first rest =>
    have hfirst := h
    simp only [List.mapM_cons, bind_eq_ok, getTargetAssetWeight] at hfirst
    obtain ⟨_, ⟨_, _, total, htotal, hweight⟩, _⟩ := hfirst
    have hpos : 0 < total := (preciseDiv_eq_ok.mp hweight).2.1
    have hweights : weights = ((first :: rest).map fun asset =>
        valueOf decimals w asset * preciseUnit).map (· / total) := by
      rw [List.map_map]
      exact mapM_eq_ok_map h fun asset _ weight hw => (getTargetAssetWeight_eq htotal hw).2
    have hvalues := valueOf_sum_le hunits hnodup htotal
    refine Nat.le_of_mul_le_mul_right ?_ hpos
    calc weights.sum * total ≤
          ((first :: rest).map fun asset => valueOf decimals w asset * preciseUnit).sum := by
            rw [hweights]
            exact Rounding.sum_floor_mul_le _ total
      _ = ((first :: rest).map (valueOf decimals w)).sum * preciseUnit := List.sum_map_mul_right ..
      _ ≤ total * preciseUnit := Nat.mul_le_mul_right _ hvalues
      _ = preciseUnit * total := Nat.mul_comm _ _

/-- **Values and weights add up.** The components are together worth no more than the SetToken, and
less by less than one for each, in any quote asset; and the weights of the reserve and of distinct
targets are together one at most. -/
theorem values_and_weights_add_up
    (hcomponents : w.around.setToken.components ≠ [])
    (hunits : ∀ component ∈ w.around.setToken.components, ∀ units,
      w.around.setToken.getTotalComponentRealUnits component = .ok units → 0 ≤ units) :
    (∀ {quoteAsset : Address} {total : Nat},
      SetValuer.calculateSetTokenValuation decimals w.around.oracle w.around.setToken quoteAsset =
        .ok total →
      ∃ values, w.around.setToken.components.mapM
          (fun component => SetValuer.calculateComponentValuation decimals w.around.oracle
            w.around.setToken component quoteAsset) = .ok values ∧
        values.sum ≤ total ∧ total < values.sum + w.around.setToken.components.length) ∧
    (∀ {targetAssets : List Address} {reserveWeight : Nat} {targetWeights : List Nat},
      (w.extension.rebalanceInfo.reserveAsset :: targetAssets).Nodup →
      getReserveWeight decimals w = .ok reserveWeight →
      targetAssets.mapM (getTargetAssetWeight decimals w) = .ok targetWeights →
      reserveWeight + targetWeights.sum ≤ preciseUnit) ∧
    ∀ {targetAsset : Address} {targetAssetWeight reserveWeight : Nat},
      w.extension.rebalanceInfo.reserveAsset ≠ targetAsset →
      getTargetAssetAndReserveWeight decimals w targetAsset =
        .ok (targetAssetWeight, reserveWeight) →
      reserveWeight + targetAssetWeight ≤ preciseUnit := by
  have hweights : ∀ {targetAssets : List Address} {reserveWeight : Nat} {targetWeights : List Nat},
      (w.extension.rebalanceInfo.reserveAsset :: targetAssets).Nodup →
      getReserveWeight decimals w = .ok reserveWeight →
      targetAssets.mapM (getTargetAssetWeight decimals w) = .ok targetWeights →
      reserveWeight + targetWeights.sum ≤ preciseUnit := by
    intro targetAssets reserveWeight targetWeights hnodup hreserve htargets
    have hall : (w.extension.rebalanceInfo.reserveAsset :: targetAssets).mapM
        (getTargetAssetWeight decimals w) = .ok (reserveWeight :: targetWeights) := by
      simp only [List.mapM_cons, bind_eq_ok, pure_eq_ok]
      exact ⟨reserveWeight, hreserve, targetWeights, htargets, rfl⟩
    rw [← List.sum_cons]
    exact weights_sum_le hunits hnodup hall
  refine ⟨fun htotal => ?_, hweights, fun {targetAsset targetAssetWeight _} hne hboth => ?_⟩
  · obtain ⟨values, hvalues, hle, hlt⟩ := SetValuer.componentValuations_sum hunits htotal
    exact ⟨values, hvalues, hle, hlt hcomponents⟩
  · obtain ⟨htarget, hreserve⟩ := getTargetAssetAndReserveWeight_eq_ok.mp hboth
    have hnodup : [w.extension.rebalanceInfo.reserveAsset, targetAsset].Nodup :=
      List.nodup_cons.mpr ⟨List.mem_singleton.not.mpr hne, List.nodup_singleton _⟩
    have htargets : [targetAsset].mapM (getTargetAssetWeight decimals w) =
        .ok [targetAssetWeight] := by
      rw [List.mapM_cons, htarget]
      rfl
    have hle := hweights hnodup hreserve htargets
    rwa [List.sum_singleton] at hle

/-- With 70 percent in the reserve the target has the other 30. -/
theorem values_and_weights_add_up_example :
    getReserveWeight (fun _ => 18) (exampleWorld 70) = .ok (70 * 10 ^ 16) ∧
      getTargetAssetWeight (fun _ => 18) (exampleWorld 70) 2 = .ok (30 * 10 ^ 16) ∧
      70 * 10 ^ 16 + [30 * 10 ^ 16].sum ≤ preciseUnit := by
  have hfirst : (exampleWorld 70).around.setToken.getTotalComponentRealUnits 1 =
      .ok (70 * 10 ^ 16) := by decide +kernel
  have hsecond : (exampleWorld 70).around.setToken.getTotalComponentRealUnits 2 =
      .ok (30 * 10 ^ 16) := by decide +kernel
  have hunits : ∀ component ∈ (exampleWorld 70).around.setToken.components, ∀ units,
      (exampleWorld 70).around.setToken.getTotalComponentRealUnits component = .ok units →
        0 ≤ units := by
    intro component hc units hunit
    cases hc with
    | head =>
      obtain rfl := Except.ok.inj (hfirst.symm.trans hunit)
      decide
    | tail _ hc =>
      obtain rfl := List.mem_singleton.mp hc
      obtain rfl := Except.ok.inj (hsecond.symm.trans hunit)
      decide
  have hreserve : getReserveWeight (fun _ => 18) (exampleWorld 70) = .ok (70 * 10 ^ 16) := by
    decide +kernel
  have htarget : getTargetAssetWeight (fun _ => 18) (exampleWorld 70) 2 = .ok (30 * 10 ^ 16) := by
    decide +kernel
  have htargets : [2].mapM (getTargetAssetWeight (fun _ => 18) (exampleWorld 70)) =
      .ok [30 * 10 ^ 16] := by decide +kernel
  exact ⟨hreserve, htarget, (values_and_weights_add_up (List.cons_ne_nil _ _) hunits).2.1
    (by decide) hreserve htargets⟩

end TargetWeightWrapExtension

end IndexProtocol
