import IndexProtocol.GeneralIndex.Run
import IndexProtocol.Issuance.Equity
import IndexProtocol.Leverage.Removal
import IndexProtocol.Staking.Module

/-! What the StakingModule records, and what the SetToken counts as staked.

The records of a component are the units of its staking contracts, and the SetToken has one external
unit for all of them. A record is in real units and stays when the multiplier falls, while the
external unit falls with it: as long as the multiplier is one the two are the same, and from then
on the SetToken counts no more than what is recorded. -/
namespace IndexProtocol
open Evm PreciseUnitMath

/-! ### Sums over the keys of a mapping -/

section Sums
variable {α β : Type} [DecidableEq α] {keys : List α} {a : α}

theorem sum_of_mem (f : α → Nat) (ha : a ∈ keys) :
    f a + ((keys.erase a).map f).sum = (keys.map f).sum := by
  rw [((List.perm_cons_erase ha).map f).sum_eq, List.map_cons, List.sum_cons]

theorem map_update_of_not_mem (f : α → β) (g : β → Nat) (b : β) (ha : a ∉ keys) :
    (keys.map fun k => g (Function.update f a b k)) = keys.map fun k => g (f k) :=
  List.map_congr_left fun k hk => by rw [Function.update_of_ne (ne_of_mem_of_not_mem hk ha)]

/-- A key's value is exchanged in the sum. -/
theorem sum_update (f : α → β) (g : β → Nat) (b : β) (hkeys : keys.Nodup) (ha : a ∈ keys) :
    (keys.map fun k => g (Function.update f a b k)).sum + g (f a) =
      (keys.map fun k => g (f k)).sum + g b := by
  rw [← sum_of_mem _ ha, ← sum_of_mem (fun k => g (f k)) ha, Function.update_self,
    map_update_of_not_mem f g b hkeys.not_mem_erase]
  omega

end Sums

namespace SetToken
variable {s t : SetToken} {sender component module c : Address}

/-! ### External units -/

theorem editDefaultPosition_external {newUnit : Nat} (h : s.WellFormed)
    (he : Position.editDefaultPosition s sender component newUnit = .ok t) :
    t.portfolio.external = s.portfolio.external := by
  obtain ⟨l, unit, _, _, rfl, _⟩ := editDefaultPosition_eq h he
  rw [setDefaultUnit_portfolio]
  rfl

/-- The unit that is written, and the others as they were. -/
theorem editExternalPosition_external {newUnit : Int} {data : List UInt8} (h : s.WellFormed)
    (he : Position.editExternalPosition s sender component module newUnit data = .ok t) :
    s.convertRealToVirtualUnit newUnit = .ok (t.portfolio.external component module) ∧
      ∀ c m, ¬(c = component ∧ m = module) →
        t.portfolio.external c m = s.portfolio.external c m := by
  obtain ⟨rfl, hzero, rfl⟩ | ⟨l, mods, unit, hunit, _, rfl, _⟩ := editExternalPosition_eq h he
  · rw [hzero]
    exact ⟨convertRealToVirtualUnit_zero h.multiplier_pos, fun _ _ _ => rfl⟩
  · rw [setExternalPosition_portfolio]
    refine ⟨?_, fun c m hcm => Portfolio.setExternal_external_of_ne hcm⟩
    rw [Portfolio.setExternal_external_same]
    exact hunit

theorem edit_external {e : Edit} (h : s.WellFormed) (hspares : e.spares module = true)
    (he : s.edit e = .ok t) : t.portfolio.external c module = s.portfolio.external c module := by
  cases e with
  | editDefaultPosition sender component newUnit => rw [editDefaultPosition_external h he]
  | editExternalPosition sender component positionModule newUnit data =>
    have hne : positionModule ≠ module := bne_iff_ne.mp hspares
    exact (editExternalPosition_external h he).2 c module fun hcm => hne hcm.2.symm
  | editPositionMultiplier sender newMultiplier =>
    obtain ⟨_, _, rfl⟩ := editPositionMultiplier_eq_ok.mp he
    rfl

theorem edits_external {edits : List Edit} (h : s.WellFormed)
    (hspares : edits.all (Edit.spares module) = true) (he : runs edit s edits = .ok t) :
    t.portfolio.external c module = s.portfolio.external c module := by
  refine (runs_induction (fun u rest => (u.WellFormed ∧
    u.portfolio.external c module = s.portfolio.external c module) ∧
      rest.all (Edit.spares module) = true) ?_ ⟨⟨h, rfl⟩, hspares⟩ he).1.2
  intro u e rest u' hu hstep
  have hall := hu.2
  rw [List.all_cons, Bool.and_eq_true] at hall
  exact ⟨⟨edit_wellFormed hu.1.1 hstep, (edit_external hu.1.1 hall.1 hstep).trans hu.1.2⟩, hall.2⟩

/-- A call by others leaves the virtual units of the module. -/
theorem call_external {a : Call} (h : s.WellFormed) (hspares : a.spares module = true)
    (ha : s.call a = .ok t) : t.portfolio.external c module = s.portfolio.external c module := by
  cases a with
  | edit e => exact edit_external h hspares ha
  | mint sender account quantity =>
    obtain ⟨_, _, _, rfl⟩ := mint_eq_ok.mp ha
    rfl
  | burn sender account quantity =>
    obtain ⟨_, _, _, rfl⟩ := burn_eq_ok.mp ha
    rfl
  | lock sender =>
    obtain ⟨_, _, _, rfl⟩ := lock_eq_ok.mp ha
    rfl
  | unlock sender =>
    obtain ⟨_, _, _, _, rfl⟩ := unlock_eq_ok.mp ha
    rfl
  | addModule sender added =>
    obtain ⟨_, _, _, rfl⟩ := addModule_eq_ok.mp ha
    rfl
  | removeModule sender removed edits =>
    simp only [call] at ha
    obtain ⟨_, _, _, u, hedits, _, _, rfl⟩ := removeModule_eq_ok.mp ha
    rw [Call.spares, Bool.and_eq_true] at hspares
    exact (edits_external h hspares.2 hedits :)
  | removePendingModule sender removed =>
    obtain ⟨_, _, _, rfl⟩ := removePendingModule_eq_ok.mp ha
    rfl
  | initializeModule sender =>
    obtain ⟨_, _, rfl⟩ := initializeModule_eq_ok.mp ha
    rfl
  | setManager sender manager =>
    obtain ⟨_, _, rfl⟩ := setManager_eq_ok.mp ha
    rfl
  | changeController controller =>
    obtain rfl := pure_eq_ok.mp ha
    rfl

theorem create_units {controller : Controller} {factory self manager : Address}
    {components modules : List Address} {units : List Int}
    (h : SetTokenCreator.create controller factory self components units modules manager = .ok s) :
    s.positionMultiplier = preciseUnitInt ∧ s.externalRealUnit c module = 0 := by
  have hnone : s.externalPositionVirtualUnit c module = 0 := by
    by_contra hne
    have hmodule := (create_wellFormed h).mem_externalPositionModules.mpr hne
    rw [(create_empty h).2 c] at hmodule
    exact absurd hmodule List.not_mem_nil
  rw [externalRealUnit, hnone, scale_zero]
  simp only [SetTokenCreator.create, bind_eq_ok, pure_eq_ok] at h
  obtain ⟨_, _, _, _, _, _, _, _, _, _, _, _, _, _, _, _, _, _, rfl⟩ := h
  exact ⟨rfl, rfl⟩

/-- With a multiplier of one a unit reads back as it was written. -/
theorem scale_of_one (hone : s.positionMultiplier = preciseUnitInt) {r v : Int}
    (h : s.convertRealToVirtualUnit r = .ok v) : scale s.positionMultiplier v = r := by
  have hpos : 0 < s.positionMultiplier := hone ▸ preciseUnitInt_pos
  obtain ⟨_, rfl, _⟩ := (convertRealToVirtualUnit_eq_ok hpos).mp h
  rw [hone, Int.mul_ediv_cancel _ preciseUnitInt_pos.ne', scale_preciseUnit]

/-- A unit that falls with the multiplier stays below what it was below. -/
theorem scale_le_of_le {m m' v : Int} {units : Nat} (hm : 0 < m') (hle : m' ≤ m)
    (h : scale m v ≤ units) : scale m' v ≤ units := by
  rcases lt_or_ge v 0 with hneg | hnonneg
  · exact (scale_neg hm hneg).le.trans (Int.natCast_nonneg units)
  · exact (Int.ediv_le_ediv preciseUnitInt_pos (Int.mul_le_mul_of_nonneg_left hle hnonneg)).trans h

end SetToken

namespace StakingModule

/-! ### Records of one component -/

namespace ComponentPositions

/-- All units that are staked. -/
def units (p : ComponentPositions) : Nat :=
  (p.stakingContracts.map fun k => (p.positions k).componentPositionUnits).sum

/-- Staking contracts are listed once, and the others have no record. -/
structure Consistent (p : ComponentPositions) : Prop where
  nodup : p.stakingContracts.Nodup
  unlisted : ∀ k, k ∉ p.stakingContracts → p.positions k = .empty

theorem consistent_empty : ComponentPositions.empty.Consistent := ⟨.nil, fun _ _ => rfl⟩

variable {p : ComponentPositions} {stakeContract : Address}

/-- Another unit for a contract that is listed. -/
theorem Consistent.rewrite (h : p.Consistent) (hlisted : stakeContract ∈ p.stakingContracts)
    (position : StakingPosition) :
    (⟨p.stakingContracts, Function.update p.positions stakeContract position⟩ :
      ComponentPositions).Consistent := by
  refine ⟨h.nodup, fun k (hk : k ∉ p.stakingContracts) => ?_⟩
  exact (Function.update_of_ne (ne_of_mem_of_not_mem hlisted hk).symm _ _).trans (h.unlisted k hk)

theorem Consistent.rewrite_units (h : p.Consistent) (hlisted : stakeContract ∈ p.stakingContracts)
    (position : StakingPosition) :
    (⟨p.stakingContracts, Function.update p.positions stakeContract position⟩ :
      ComponentPositions).units + (p.positions stakeContract).componentPositionUnits =
        p.units + position.componentPositionUnits :=
  sum_update p.positions StakingPosition.componentPositionUnits position h.nodup hlisted

theorem Consistent.push (h : p.Consistent) (hnew : stakeContract ∉ p.stakingContracts)
    (position : StakingPosition) :
    (⟨p.stakingContracts ++ [stakeContract], Function.update p.positions stakeContract position⟩ :
      ComponentPositions).Consistent := by
  refine ⟨List.nodup_append.mpr ⟨h.nodup, List.nodup_singleton _, ?_⟩, fun k hk => ?_⟩
  · rintro k hk _ hlast rfl
    exact hnew (List.mem_singleton.mp hlast ▸ hk)
  · rw [List.mem_append, List.mem_singleton, not_or] at hk
    exact (Function.update_of_ne hk.2 _ _).trans (h.unlisted k hk.1)

theorem push_units (hnew : stakeContract ∉ p.stakingContracts) (position : StakingPosition) :
    (⟨p.stakingContracts ++ [stakeContract], Function.update p.positions stakeContract position⟩ :
      ComponentPositions).units = p.units + position.componentPositionUnits := by
  show ((p.stakingContracts ++ [stakeContract]).map fun k =>
    (Function.update p.positions stakeContract position k).componentPositionUnits).sum = _
  rw [List.map_append, List.sum_append, List.map_singleton, List.sum_singleton,
    Function.update_self, map_update_of_not_mem p.positions _ position hnew, units]

theorem Consistent.delete (h : p.Consistent) :
    (⟨p.stakingContracts.erase stakeContract, Function.update p.positions stakeContract .empty⟩ :
      ComponentPositions).Consistent := by
  refine ⟨h.nodup.erase _, fun k hk => ?_⟩
  by_cases heq : k = stakeContract
  · subst heq
    exact Function.update_self _ _ _
  · refine (Function.update_of_ne heq _ _).trans (h.unlisted k fun hlisted => hk ?_)
    exact (List.mem_erase_of_ne heq).mpr hlisted

theorem Consistent.delete_units (h : p.Consistent) (hlisted : stakeContract ∈ p.stakingContracts) :
    (⟨p.stakingContracts.erase stakeContract, Function.update p.positions stakeContract .empty⟩ :
      ComponentPositions).units + (p.positions stakeContract).componentPositionUnits = p.units := by
  show ((p.stakingContracts.erase stakeContract).map fun k =>
    (Function.update p.positions stakeContract .empty k).componentPositionUnits).sum + _ = _
  rw [map_update_of_not_mem p.positions _ .empty h.nodup.not_mem_erase, Nat.add_comm, units]
  exact sum_of_mem (fun k => (p.positions k).componentPositionUnits) hlisted

end ComponentPositions

/-! ### What the manager's calls record -/

section Recording
variable {χ : Type} {nameHash : String → BitVec 256} {module : Address} {w v : World (State χ)}
  {stakeContract component : Address} {adapterName : String} {componentPositionUnits : Nat}

theorem recordStake_eq (hconsistent : (w.rest.stakingPositions component).Consistent)
    (h : recordStake nameHash w stakeContract component adapterName componentPositionUnits = .ok v) :
    ∃ p, v = withPositions w component p ∧ p.Consistent ∧
      p.units = (w.rest.stakingPositions component).units + componentPositionUnits := by
  unfold recordStake at h
  split_ifs at h with hlisted
  · simp only [bind_eq_ok, SafeMath.add_eq_ok, pure_eq_ok] at h
    obtain ⟨units, ⟨_, rfl⟩, rfl⟩ := h
    have hmem : stakeContract ∈ (w.rest.stakingPositions component).stakingContracts :=
      (ArrayUtils.contains_eq_true _ _).mp hlisted
    refine ⟨_, rfl, hconsistent.rewrite hmem _, ?_⟩
    have hunits := hconsistent.rewrite_units hmem
      { (w.rest.stakingPositions component).positions stakeContract with
        componentPositionUnits :=
          componentPositionUnits + getStakingPositionUnit w component stakeContract }
    simp only [getStakingPositionUnit, getStakingPosition] at hunits ⊢
    omega
  · obtain rfl := pure_eq_ok.mp h
    have hnew : stakeContract ∉ (w.rest.stakingPositions component).stakingContracts :=
      fun hmem => hlisted ((ArrayUtils.contains_eq_true _ _).mpr hmem)
    exact ⟨_, rfl, hconsistent.push hnew _, ComponentPositions.push_units hnew _⟩

theorem recordUnstake_eq (hconsistent : (w.rest.stakingPositions component).Consistent)
    (h : recordUnstake w stakeContract component componentPositionUnits = .ok v) :
    ∃ p, v = withPositions w component p ∧ p.Consistent ∧
      p.units + componentPositionUnits = (w.rest.stakingPositions component).units := by
  simp only [recordUnstake, bind_eq_ok, SafeMath.sub_eq_ok, getStakingPositionUnit,
    getStakingPosition] at h
  obtain ⟨_, ⟨hle, rfl⟩, h⟩ := h
  split_ifs at h with hremaining
  · obtain rfl := pure_eq_ok.mp h
    -- What has no record has no units left to keep.
    have hmem : stakeContract ∈ (w.rest.stakingPositions component).stakingContracts := by
      by_contra hnot
      rw [hconsistent.unlisted stakeContract hnot] at hremaining
      exact absurd hremaining (by simp [StakingPosition.empty])
    refine ⟨_, rfl, hconsistent.rewrite hmem _, ?_⟩
    have hunits := hconsistent.rewrite_units hmem
      { (w.rest.stakingPositions component).positions stakeContract with
        componentPositionUnits :=
          ((w.rest.stakingPositions component).positions stakeContract).componentPositionUnits -
            componentPositionUnits }
    simp only at hunits ⊢
    omega
  · simp only [bind_eq_ok, pure_eq_ok] at h
    obtain ⟨stakingContracts, hremove, rfl⟩ := h
    obtain ⟨hmem, rfl⟩ := ArrayUtils.remove_eq_ok hremove
    refine ⟨_, rfl, hconsistent.delete, ?_⟩
    have hunits := hconsistent.delete_units hmem
    simp only [getStakingContracts] at hunits ⊢
    omega

theorem recordUnstake_setToken
    (h : recordUnstake w stakeContract component componentPositionUnits = .ok v) :
    v.setToken = w.setToken := by
  simp only [recordUnstake, bind_eq_ok] at h
  obtain ⟨_, _, h⟩ := h
  split_ifs at h
  · obtain rfl := pure_eq_ok.mp h
    rfl
  · simp only [bind_eq_ok, pure_eq_ok] at h
    obtain ⟨_, _, rfl⟩ := h
    rfl

end Recording

/-! ### What the SetToken counts -/

section Moving
variable {module component : Address} {s t : SetToken} {x : Nat} {delta : Int}

/-- The external unit of the module in a component was written anew, and no other one of it. -/
structure Moved (module component : Address) (delta : Int) (s t : SetToken) : Prop where
  wellFormed : t.WellFormed
  multiplier : t.positionMultiplier = s.positionMultiplier
  unit : s.convertRealToVirtualUnit (s.externalRealUnit component module + delta) =
    .ok (t.portfolio.external component module)
  others : ∀ c, c ≠ component → t.portfolio.external c module = s.portfolio.external c module

/-- The default position is edited first, and the external one then. -/
theorem moved_of_edits {u : SetToken} {newUnit : Nat} (hwf : s.WellFormed)
    (hdefault : Position.editDefaultPosition s module component newUnit = .ok u)
    (hexternal : Position.editExternalPosition u module component module
      (u.externalRealUnit component module + delta) [] = .ok t) : Moved module component delta s t := by
  have hwf' := SetToken.editDefaultPosition_wellFormed hwf hdefault
  have honly := SetToken.editDefaultPosition_only hdefault
  have hsame := SetToken.editDefaultPosition_external hwf hdefault
  have hreal : u.externalRealUnit component module = s.externalRealUnit component module := by
    rw [SetToken.externalRealUnit, SetToken.externalRealUnit, honly.positionMultiplier]
    exact congrArg _ (congrFun (congrFun hsame component) module)
  obtain ⟨hunit, hothers⟩ := SetToken.editExternalPosition_external hwf' hexternal
  rw [hreal, honly.convertRealToVirtualUnit] at hunit
  refine ⟨SetToken.editExternalPosition_wellFormed hwf' hexternal, ?_, hunit, fun c hc => ?_⟩
  · rw [(SetToken.editExternalPosition_only hexternal).positionMultiplier, honly.positionMultiplier]
  · rw [hothers c module fun hcm => hc hcm.1, hsame]

theorem moveToExternal_moved (hwf : s.WellFormed) (h : moveToExternal module s component x = .ok t) :
    Moved module component x s t := by
  simp only [moveToExternal, bind_eq_ok, SetToken.getExternalPositionRealUnit_eq_ok,
    SafeCast.toInt256_eq_ok, SignedSafeMath.add_eq_ok] at h
  obtain ⟨_, _, _, _, _, _, u, hdefault, _, ⟨_, rfl⟩, _, ⟨_, rfl⟩, _, ⟨_, rfl⟩, hexternal⟩ := h
  exact moved_of_edits hwf hdefault hexternal

theorem moveToDefault_moved (hwf : s.WellFormed) (h : moveToDefault module s component x = .ok t) :
    Moved module component (-x) s t := by
  simp only [moveToDefault, bind_eq_ok, SetToken.getExternalPositionRealUnit_eq_ok,
    SafeCast.toInt256_eq_ok, SignedSafeMath.sub_eq_ok] at h
  obtain ⟨_, _, _, _, _, _, u, hdefault, _, ⟨_, rfl⟩, _, ⟨_, rfl⟩, _, ⟨_, rfl⟩, hexternal⟩ := h
  exact moved_of_edits hwf hdefault hexternal

end Moving

/-! ### Runs -/

/-- What happens to the SetToken, and who calls. -/
inductive Action where
  | initializeSet (sender : Address)
  | stake (sender stakeContract component : Address) (adapterName : String)
      (componentPositionUnits : Nat)
  | unstake (sender stakeContract component : Address) (adapterName : String)
      (componentPositionUnits : Nat)
  | componentIssueHook (sender : Address) (setTokenQuantity : Nat) (component : Address)
  | componentRedeemHook (sender : Address) (setTokenQuantity : Nat) (component : Address)
  | removeModule (sender : Address)
  /-- What other modules and the manager do to the SetToken. -/
  | callSetToken (call : SetToken.Call)
  /-- Tokens move, and the integration registry changes. -/
  | elsewhere (tokens : Address → Erc20) (integrations : BitVec 256 → Address)

section Runs
variable {χ : Type} (adapters : Address → StakingAdapter) (nameHash : String → BitVec 256)
  (call : Address → Nat → List UInt8 → World (State χ) → Result (World (State χ)))
  (module : Address)

def step (w : World (State χ)) : Action → Result (World (State χ))
  | .initializeSet sender => initializeSet module w sender
  | .stake sender stakeContract component adapterName units =>
    stake adapters nameHash call module w sender stakeContract component adapterName units
  | .unstake sender stakeContract component adapterName units =>
    unstake adapters nameHash call module w sender stakeContract component adapterName units
  | .componentIssueHook sender quantity component =>
    componentIssueHook adapters call module w sender quantity component
  | .componentRedeemHook sender quantity component =>
    componentRedeemHook adapters call module w sender quantity component
  | .removeModule sender => removeFromSet module w sender
  | .callSetToken call => w.callSetToken (·.call call)
  | .elsewhere tokens integrations =>
    pure { w with tokens := tokens, rest := { w.rest with integrations := integrations } }

/-- A staking contract calls neither the module nor the SetToken. -/
def Outside : Prop :=
  ∀ target callValue methodData w v, call target callValue methodData w = .ok v →
    v.setToken = w.setToken ∧ v.rest.stakingPositions = w.rest.stakingPositions

/-- Others leave the module's positions to it, and the multiplier does not rise. -/
def Spares (w : World (State χ)) : Action → Prop
  | .callSetToken call => call.spares module = true ∧
    call.multiplier w.setToken.positionMultiplier ≤ w.setToken.positionMultiplier
  | _ => True

instance (w : World (State χ)) (a : Action) : Decidable (Spares module w a) := by
  cases a <;> unfold Spares <;> infer_instance

/-- The SetToken counts what is recorded, or less where the multiplier has fallen. -/
structure Recorded (w : World (State χ)) : Prop where
  wellFormed : w.setToken.WellFormed
  multiplier_le : w.setToken.positionMultiplier ≤ preciseUnitInt
  consistent : ∀ c, (w.rest.stakingPositions c).Consistent
  external_le : ∀ c, w.setToken.externalRealUnit c module ≤ (w.rest.stakingPositions c).units
  external_eq : w.setToken.positionMultiplier = preciseUnitInt →
    ∀ c, w.setToken.externalRealUnit c module = (w.rest.stakingPositions c).units

variable {adapters nameHash call module} {w u v : World (State χ)}

namespace Recorded

/-- Neither the positions nor the records changed. -/
theorem of_same (h : Recorded module w) (hset : w.setToken.SamePositions v.setToken)
    (hrest : v.rest.stakingPositions = w.rest.stakingPositions) : Recorded module v := by
  refine ⟨h.wellFormed.of_same hset, ?_, ?_, ?_, ?_⟩
  · rw [hset.positionMultiplier]
    exact h.multiplier_le
  · rw [hrest]
    exact h.consistent
  · intro c
    rw [hset.externalRealUnit, hrest]
    exact h.external_le c
  · intro hone c
    rw [hset.externalRealUnit, hrest]
    exact h.external_eq (hset.positionMultiplier ▸ hone) c

theorem of_outside (h : Recorded module w) (hcall : v.setToken = w.setToken ∧
    v.rest.stakingPositions = w.rest.stakingPositions) : Recorded module v :=
  h.of_same (hcall.1 ▸ .refl _) hcall.2

/-- A record and the external unit change alike. -/
theorem moved (h : Recorded module w) {component : Address} {p : ComponentPositions} {delta : Int}
    (hp : p.Consistent)
    (hunits : (p.units : Int) = (w.rest.stakingPositions component).units + delta)
    (hmoved : Moved module component delta w.setToken v.setToken)
    (hrest : v.rest.stakingPositions = Function.update w.rest.stakingPositions component p) :
    Recorded module v := by
  have hpositions (c : Address) (hc : c ≠ component) :
      v.rest.stakingPositions c = w.rest.stakingPositions c := by
    rw [hrest, Function.update_of_ne hc]
  have hsame : v.rest.stakingPositions component = p := by
    rw [hrest, Function.update_self]
  have hothers (c : Address) (hc : c ≠ component) :
      v.setToken.externalRealUnit c module = w.setToken.externalRealUnit c module := by
    rw [SetToken.externalRealUnit, SetToken.externalRealUnit, hmoved.multiplier]
    exact congrArg _ (hmoved.others c hc)
  have hunit : v.setToken.externalRealUnit component module =
      SetToken.scale w.setToken.positionMultiplier (v.setToken.portfolio.external component module) :=
    congrArg (SetToken.scale · _) hmoved.multiplier
  refine ⟨hmoved.wellFormed, hmoved.multiplier ▸ h.multiplier_le, fun c => ?_, fun c => ?_,
    fun hone c => ?_⟩
  · by_cases hc : c = component
    · rwa [hc, hsame]
    · rw [hpositions c hc]
      exact h.consistent c
  · by_cases hc : c = component
    · have hread := (SetToken.scale_bounds h.wellFormed.multiplier_pos hmoved.unit).1
      have hle := h.external_le component
      rw [hc, hsame, hunit]
      omega
    · rw [hothers c hc, hpositions c hc]
      exact h.external_le c
  · rw [hmoved.multiplier] at hone
    by_cases hc : c = component
    · have heq := h.external_eq hone component
      rw [hc, hsame, hunit, SetToken.scale_of_one hone hmoved.unit]
      omega
    · rw [hothers c hc, hpositions c hc]
      exact h.external_eq hone c

/-- The multiplier falls at most, and the virtual units stay. -/
theorem of_call (h : Recorded module w) {a : SetToken.Call} (hspares : a.spares module = true)
    (hle : a.multiplier w.setToken.positionMultiplier ≤ w.setToken.positionMultiplier)
    (hcall : w.callSetToken (·.call a) = .ok v) : Recorded module v := by
  obtain ⟨t, ht, rfl⟩ := World.callSetToken_eq_ok.mp hcall
  have hwf := SetToken.call_wellFormed h.wellFormed ht
  rw [← SetToken.call_multiplier ht] at hle
  have hunit (c : Address) : t.externalRealUnit c module = SetToken.scale t.positionMultiplier
      (w.setToken.portfolio.external c module) :=
    congrArg _ (SetToken.call_external h.wellFormed hspares ht)
  refine ⟨hwf, hle.trans h.multiplier_le, h.consistent, fun c => ?_, fun hone c => ?_⟩
  · show t.externalRealUnit c module ≤ _
    rw [hunit]
    exact SetToken.scale_le_of_le hwf.multiplier_pos hle (h.external_le c)
  · have hsame : w.setToken.positionMultiplier = t.positionMultiplier :=
      le_antisymm (h.multiplier_le.trans hone.ge) hle
    show t.externalRealUnit c module = _
    rw [hunit, ← hsame]
    exact h.external_eq (hsame.trans hone) c

end Recorded

/-! Staking contracts leave the records alone. -/

theorem stakeNotional_outside (hcall : Outside call) {stakeContract component : Address}
    {adapter : StakingAdapter} {units quantity : Nat}
    (h : stakeNotional call module w stakeContract component adapter units quantity = .ok v) :
    v.setToken = w.setToken ∧ v.rest.stakingPositions = w.rest.stakingPositions := by
  simp only [stakeNotional, World.invoke, bind_eq_ok] at h
  obtain ⟨_, _, _, _, u, happrove, _, _, _, _, hcalled⟩ := h
  have hsame := (World.invokeApprove_balance happrove).1
  obtain ⟨hset, hrest⟩ := hcall _ _ _ _ _ hcalled
  exact ⟨hset.trans hsame.setToken, hrest.trans (congrArg State.stakingPositions hsame.rest)⟩

theorem unstakeNotional_outside (hcall : Outside call) {stakeContract component : Address}
    {adapter : StakingAdapter} {units quantity : Nat}
    (h : unstakeNotional call module w stakeContract component adapter units quantity = .ok v) :
    v.setToken = w.setToken ∧ v.rest.stakingPositions = w.rest.stakingPositions := by
  simp only [unstakeNotional, World.invoke, bind_eq_ok, pure_eq_ok] at h
  obtain ⟨_, _, _, _, u, ⟨_, _, hcalled⟩, _, _, _, _, rfl⟩ := h
  exact hcall _ _ _ _ _ hcalled

/-- One step keeps the records and the external units together. -/
theorem step_recorded {a : Action} (hcall : Outside call) (h : Recorded module w)
    (hspares : Spares module w a) (hstep : step adapters nameHash call module w a = .ok v) :
    Recorded module v := by
  cases a with
  | initializeSet sender =>
    simp only [step, initializeSet, bind_eq_ok] at hstep
    obtain ⟨_, _, _, _, hinitialize⟩ := hstep
    obtain ⟨t, ht, rfl⟩ := World.callSetToken_eq_ok.mp hinitialize
    exact h.of_same (SetToken.initializeModule_same ht).1 rfl
  | stake sender stakeContract component adapterName units =>
    simp only [step, stake, updateStakeState, bind_eq_ok] at hstep
    obtain ⟨_, _, _, _, _, _, _, _, u, hstake, t, hrecord, hmove⟩ := hstep
    have hu := h.of_outside (stakeNotional_outside hcall hstake)
    obtain ⟨p, rfl, hp, hunits⟩ := recordStake_eq (hu.consistent component) hrecord
    obtain ⟨s, hs, rfl⟩ := World.callSetToken_eq_ok.mp hmove
    exact hu.moved hp (by rw [hunits, Nat.cast_add]) (moveToExternal_moved hu.wellFormed hs) rfl
  | unstake sender stakeContract component adapterName units =>
    simp only [step, unstake, updateUnstakeState, bind_eq_ok] at hstep
    obtain ⟨_, _, _, _, _, _, u, hunstake, t, hrecord, hmove⟩ := hstep
    have hu := h.of_outside (unstakeNotional_outside hcall hunstake)
    obtain ⟨p, rfl, hp, hunits⟩ := recordUnstake_eq (hu.consistent component) hrecord
    obtain ⟨s, hs, rfl⟩ := World.callSetToken_eq_ok.mp hmove
    exact hu.moved hp (by omega) (moveToDefault_moved hu.wellFormed hs) rfl
  | componentIssueHook sender quantity component =>
    simp only [step, componentIssueHook, bind_eq_ok] at hstep
    obtain ⟨_, _, hstakes⟩ := hstep
    refine runs_invariant (Recorded module) (fun u k t hu ht => ?_) h hstakes
    simp only [bind_eq_ok] at ht
    obtain ⟨_, _, hstake⟩ := ht
    exact hu.of_outside (stakeNotional_outside hcall hstake)
  | componentRedeemHook sender quantity component =>
    simp only [step, componentRedeemHook, bind_eq_ok] at hstep
    obtain ⟨_, _, hunstakes⟩ := hstep
    refine runs_invariant (Recorded module) (fun u k t hu ht => ?_) h hunstakes
    simp only [bind_eq_ok] at ht
    obtain ⟨_, _, hunstake⟩ := ht
    exact hu.of_outside (unstakeNotional_outside hcall hunstake)
  | removeModule sender =>
    simp only [step, removeFromSet, bind_eq_ok] at hstep
    obtain ⟨_, _, _, _, hremove⟩ := hstep
    obtain ⟨t, ht, rfl⟩ := World.callSetToken_eq_ok.mp hremove
    simp only [SetToken.finishRemoveModule, bind_eq_ok, pure_eq_ok] at ht
    obtain ⟨_, _, rfl⟩ := ht
    exact h.of_same ⟨rfl, rfl, rfl, rfl⟩ rfl
  | callSetToken a => exact h.of_call hspares.1 hspares.2 hstep
  | elsewhere tokens integrations =>
    obtain rfl := pure_eq_ok.mp hstep
    exact h.of_same (.refl _) rfl

/-- All that is unstaked leaves the external unit. Where the multiplier has fallen more may be
recorded than it counts, and the SetToken then has a debt of what it no longer counted. -/
theorem unstake_external_le {sender stakeContract component : Address} {adapterName : String}
    {units : Nat} (hcall : Outside call) (hwf : w.setToken.WellFormed)
    (h : unstake adapters nameHash call module w sender stakeContract component adapterName units =
      .ok v) :
    v.setToken.externalRealUnit component module ≤
      w.setToken.externalRealUnit component module - units := by
  simp only [unstake, updateUnstakeState, bind_eq_ok] at h
  obtain ⟨_, _, _, _, _, _, u, hunstake, t, hrecord, hmove⟩ := h
  have hset := (unstakeNotional_outside hcall hunstake).1
  have hrecorded : t.setToken = u.setToken := recordUnstake_setToken hrecord
  obtain ⟨s, hs, rfl⟩ := World.callSetToken_eq_ok.mp hmove
  rw [hrecorded, hset] at hs
  have hmoved := moveToDefault_moved hwf hs
  rw [SetToken.externalRealUnit, hmoved.multiplier]
  exact (SetToken.scale_bounds hwf.multiplier_pos hmoved.unit).1

/-- Where the module can be removed, the components of the SetToken have no staking contracts. -/
theorem removeFromSet_eq {sender : Address} (h : removeFromSet module w sender = .ok v) :
    v.rest = w.rest ∧ ∀ c ∈ w.setToken.components, getStakingContracts w c = [] := by
  simp only [removeFromSet, removeModule, bind_eq_ok] at h
  obtain ⟨_, _, _, hclosed, hremove⟩ := h
  obtain ⟨_, _, rfl⟩ := World.callSetToken_eq_ok.mp hremove
  refine ⟨rfl, (runs_each (R := fun _ _ => True) (Q := fun c _ => getStakingContracts w c = [])
    (fun _ => trivial) (fun _ _ => trivial) (fun hc _ => hc) (fun _ c _ hc => ⟨trivial, ?_⟩)
    hclosed).2⟩
  exact List.eq_nil_of_length_eq_zero (require_eq_ok.mp hc)

/-- Nothing is left staked in a component that the SetToken does not have. -/
theorem Recorded.unit_of_closed (h : Recorded module w)
    (hone : w.setToken.positionMultiplier = preciseUnitInt)
    (hclosed : ∀ c ∈ w.setToken.components, getStakingContracts w c = []) (c k : Address) :
    getStakingPositionUnit w c k = 0 := by
  have hunlisted (hk : k ∉ getStakingContracts w c) : getStakingPositionUnit w c k = 0 := by
    rw [getStakingPositionUnit, getStakingPosition, (h.consistent c).unlisted k hk]
    rfl
  by_cases hc : c ∈ w.setToken.components
  · exact hunlisted (hclosed c hc ▸ List.not_mem_nil)
  by_cases hk : k ∈ getStakingContracts w c
  · have hnone : w.setToken.externalPositionVirtualUnit c module = 0 := by
      by_contra hne
      have hmodule := h.wellFormed.mem_externalPositionModules.mpr hne
      exact hc (h.wellFormed.mem_components.mpr (.inr (List.ne_nil_of_mem hmodule)))
    have hunits := h.external_eq hone c
    rw [SetToken.externalRealUnit, hnone, SetToken.scale_zero] at hunits
    have hsum := sum_of_mem (getStakingPositionUnit w c) hk
    have hzero : ((getStakingContracts w c).map (getStakingPositionUnit w c)).sum = 0 := by
      exact_mod_cast hunits.symm
    omega
  · exact hunlisted hk

section Reachable
variable {controller : Controller} {factory self manager : Address}
  {components modules : List Address} {units : List Int} {actions : List Action}
  (hcreate : SetTokenCreator.create controller factory self components units modules manager =
    .ok w.setToken)
  (hnew : w.rest.stakingPositions = fun _ => .empty) (hcall : Outside call)
  (hspares : Along (step adapters nameHash call module) (Spares module) w actions)
  (hrun : runs (step adapters nameHash call module) w actions = .ok v)
include hcreate hnew hcall hspares hrun

theorem run_recorded : Recorded module v := by
  refine runs_induction_along (fun u _ => Recorded module u)
    (fun u a _ t hu ha ht => step_recorded hcall hu ha ht) ?_ hspares hrun
  have hunits (c : Address) : w.setToken.positionMultiplier = preciseUnitInt ∧
      w.setToken.externalRealUnit c module = 0 := SetToken.create_units hcreate
  refine ⟨SetToken.create_wellFormed hcreate, (hunits 0).1.le, fun c => ?_, fun c => ?_,
    fun _ c => ?_⟩
  all_goals rw [hnew]
  · exact ComponentPositions.consistent_empty
  · exact (hunits c).2.le
  · exact (hunits c).2

/-- **What is recorded is what the SetToken counts.** From the creation of the SetToken, whatever is
staked, unstaked, issued and redeemed with staking contracts that do not call back, and whatever
others do that leave the module's positions to it and never raise the multiplier: each component's
staking contracts are listed once, those that are not listed have no record, and the external unit
is no more than all units recorded. As long as the multiplier is one it is all of them, and the
module can be removed only when none is left. -/
theorem reachable_recorded :
    (∀ c, (v.rest.stakingPositions c).Consistent ∧
      v.setToken.externalRealUnit c module ≤ (v.rest.stakingPositions c).units) ∧
    (v.setToken.positionMultiplier = preciseUnitInt →
      (∀ c, v.setToken.externalRealUnit c module = (v.rest.stakingPositions c).units) ∧
      ∀ sender u, removeFromSet module v sender = .ok u →
        ∀ c k, getStakingPositionUnit u c k = 0) := by
  have h := run_recorded hcreate hnew hcall hspares hrun
  refine ⟨fun c => ⟨h.consistent c, h.external_le c⟩, fun hone => ⟨h.external_eq hone, ?_⟩⟩
  intro sender u hremove c k
  obtain ⟨hrest, hclosed⟩ := removeFromSet_eq hremove
  rw [getStakingPositionUnit, getStakingPosition, hrest]
  exact h.unit_of_closed hone hclosed c k

end Reachable

/-! ### What the hooks move -/

/-- A staking contract takes no more of a component than is staked in it. -/
def TakesAtMost (adapters : Address → StakingAdapter)
    (call : Address → Nat → List UInt8 → World (State χ) → Result (World (State χ)))
    (component : Address) : Prop :=
  ∀ adapter stakingContract notional target callValue methodData w v,
    (adapters adapter).getStakeCallData stakingContract notional =
      .ok (target, callValue, methodData) →
    call target callValue methodData w = .ok v → w.balance component ≤ v.balance component + notional

variable {stakingContract component adapter : Address} {positionUnits quantity : Nat}

theorem stakeNotional_balance (htakes : TakesAtMost adapters call component)
    (h : stakeNotional call module w stakingContract component (adapters adapter) positionUnits
      quantity = .ok v) :
    w.balance component ≤ v.balance component + quantity * positionUnits / preciseUnit := by
  simp only [stakeNotional, World.invoke, Position.getDefaultTotalNotional, bind_eq_ok,
    preciseMul_eq_ok] at h
  obtain ⟨_, ⟨_, rfl⟩, _, _, u, happrove, ⟨target, callValue, methodData⟩, hdata, _, _, hcalled⟩ := h
  obtain ⟨hsame, hbalances⟩ := World.invokeApprove_balance happrove
  have htaken := htakes adapter _ _ _ _ _ _ _ hdata hcalled
  have hbalance : u.balance component = w.balance component := by
    rw [World.balance, World.balance, Erc20.balanceOf, Erc20.balanceOf, hbalances, hsame.setToken]
  rwa [hbalance] at htaken

/-- What is returned is checked. -/
theorem unstakeNotional_balance
    (h : unstakeNotional call module w stakingContract component (adapters adapter) positionUnits
      quantity = .ok v) :
    w.balance component + quantity * positionUnits / preciseUnit ≤ v.balance component := by
  simp only [unstakeNotional, Position.getDefaultTotalNotional, bind_eq_ok, preciseMul_eq_ok,
    SafeMath.add_eq_ok, require_eq_ok, exists_const, pure_eq_ok] at h
  obtain ⟨_, ⟨_, rfl⟩, _, _, u, _, _, ⟨_, rfl⟩, hreturned, rfl⟩ := h
  exact hreturned

/-- A loop over staking contracts, each of which takes and returns its own amount at most and at
least. -/
theorem loop_balance (component : Address)
    {body : World (State χ) → Address → Result (World (State χ))} {keys : List Address}
    (taken returned : Address → Nat)
    (hstep : ∀ u k t, u.rest.stakingPositions = w.rest.stakingPositions → body u k = .ok t →
      t.rest.stakingPositions = u.rest.stakingPositions ∧
        u.balance component + returned k ≤ t.balance component + taken k)
    (h : runs body w keys = .ok v) :
    w.balance component + (keys.map returned).sum ≤ v.balance component + (keys.map taken).sum := by
  have hall := runs_induction
    (fun (u : World (State χ)) rest => u.rest.stakingPositions = w.rest.stakingPositions ∧
      w.balance component + (keys.map returned).sum + (rest.map taken).sum ≤
        u.balance component + (rest.map returned).sum + (keys.map taken).sum)
    (fun u k rest t hu ht => ?_) ⟨rfl, le_refl _⟩ h
  · simpa using hall.2
  · obtain ⟨hsame, hmoved⟩ := hstep u k t hu.1 ht
    have hbefore := hu.2
    rw [List.map_cons, List.sum_cons, List.map_cons, List.sum_cons] at hbefore
    exact ⟨hsame.trans hu.1, by omega⟩

/-- The parts of the quantity that are staked, each rounded down. -/
def notional (p : ComponentPositions) (quantity : Nat) : Nat :=
  (p.stakingContracts.map fun k =>
    quantity * (p.positions k).componentPositionUnits / preciseUnit).sum

/-- The parts make up the whole, but for what each of them is rounded by. -/
theorem notional_bounds (p : ComponentPositions) (quantity : Nat) :
    notional p quantity ≤ p.units * quantity / preciseUnit ∧
      p.units * quantity / preciseUnit < notional p quantity + max 1 p.stakingContracts.length := by
  have hparts : (p.stakingContracts.map fun k =>
      quantity * (p.positions k).componentPositionUnits).sum = p.units * quantity := by
    rw [List.sum_map_mul_left, Nat.mul_comm]
    rfl
  have hnotional : notional p quantity = ((p.stakingContracts.map fun k =>
      quantity * (p.positions k).componentPositionUnits).map (· / preciseUnit)).sum := by
    rw [List.map_map]
    rfl
  rw [hnotional, ← hparts]
  refine ⟨Rounding.sum_floor_le _ preciseUnit_pos, ?_⟩
  by_cases hnil : p.stakingContracts = []
  · simp [hnil]
  · have hne : (p.stakingContracts.map fun k =>
        quantity * (p.positions k).componentPositionUnits) ≠ [] := by simpa using hnil
    have hlt := Rounding.sum_floor_lt hne preciseUnit_pos
    rw [List.length_map] at hlt
    exact hlt.trans_le (Nat.add_le_add_left (le_max_right _ _) _)

theorem componentIssueHook_balance {sender : Address} (hcall : Outside call)
    (htakes : TakesAtMost adapters call component)
    (h : componentIssueHook adapters call module w sender quantity component = .ok v) :
    w.balance component ≤ v.balance component +
      notional (w.rest.stakingPositions component) quantity := by
  simp only [componentIssueHook, bind_eq_ok] at h
  obtain ⟨_, _, hstakes⟩ := h
  have hloop := loop_balance component
    (fun k => quantity * getStakingPositionUnit w component k / preciseUnit) (fun _ => 0)
    (fun u k t hu ht => ?_) hstakes
  · simp only [List.map_const', List.sum_replicate, smul_zero, Nat.add_zero] at hloop
    exact hloop
  · simp only [bind_eq_ok] at ht
    obtain ⟨adapter, _, hstake⟩ := ht
    have hbalance := stakeNotional_balance htakes hstake
    rw [getStakingPosition, hu] at hbalance
    exact ⟨(stakeNotional_outside hcall hstake).2, hbalance⟩

theorem componentRedeemHook_balance {sender : Address} (hcall : Outside call)
    (h : componentRedeemHook adapters call module w sender quantity component = .ok v) :
    w.balance component + notional (w.rest.stakingPositions component) quantity ≤
      v.balance component := by
  simp only [componentRedeemHook, bind_eq_ok] at h
  obtain ⟨_, _, hunstakes⟩ := h
  have hloop := loop_balance component (fun _ => 0)
    (fun k => quantity * getStakingPositionUnit w component k / preciseUnit)
    (fun u k t hu ht => ?_) hunstakes
  · simp only [List.map_const', List.sum_replicate, smul_zero, Nat.add_zero] at hloop
    exact hloop
  · simp only [bind_eq_ok] at ht
    obtain ⟨adapter, _, hunstake⟩ := ht
    have hbalance := unstakeNotional_balance hunstake
    rw [getStakingPosition, hu] at hbalance
    exact ⟨(unstakeNotional_outside hcall hunstake).2, hbalance⟩

/-- **The hooks move the external unit.** From the creation of the SetToken, with staking contracts
that do not call back, as long as the multiplier is one: where shares are issued no more of a
component is staked than its external unit of them, rounded down, and where they are redeemed no
less is unstaked, but for one less than the staking contracts there are. -/
theorem hooks_move_external {controller : Controller} {factory self manager : Address}
    {components modules : List Address} {units : List Int} {actions : List Action}
    (hcreate : SetTokenCreator.create controller factory self components units modules manager =
      .ok w.setToken)
    (hnew : w.rest.stakingPositions = fun _ => .empty) (hcall : Outside call)
    (hspares : Along (step adapters nameHash call module) (Spares module) w actions)
    (hrun : runs (step adapters nameHash call module) w actions = .ok v)
    (hone : v.setToken.positionMultiplier = preciseUnitInt)
    (htakes : TakesAtMost adapters call component) :
    (∀ sender u, componentIssueHook adapters call module v sender quantity component = .ok u →
      v.balance component ≤ u.balance component +
        DebtIssuanceModule.externalEquity v.setToken component module * quantity / preciseUnit) ∧
    ∀ sender u, componentRedeemHook adapters call module v sender quantity component = .ok u →
      v.balance component +
          DebtIssuanceModule.externalEquity v.setToken component module * quantity / preciseUnit <
        u.balance component + max 1 (getStakingContracts v component).length := by
  have h := run_recorded hcreate hnew hcall hspares hrun
  have hunits : DebtIssuanceModule.externalEquity v.setToken component module =
      (v.rest.stakingPositions component).units := by
    rw [DebtIssuanceModule.externalEquity, h.external_eq hone, Int.toNat_natCast]
  obtain ⟨hle, hlt⟩ := notional_bounds (v.rest.stakingPositions component) quantity
  rw [hunits]
  refine ⟨fun sender u hissue => ?_, fun sender u hredeem => ?_⟩
  · exact (componentIssueHook_balance hcall htakes hissue).trans (Nat.add_le_add_left hle _)
  · have hreturned := componentRedeemHook_balance hcall hredeem
    rw [getStakingContracts]
    omega

end Runs

/-! Of ten of token 1, four are staked in the contract at 72. -/

section Example
open AuctionRebalanceModuleV1 (exampleController exampleCreation exampleTokens)

/-- An adapter of contracts that are told by a first byte whether to take or to return. -/
def exampleAdapters (_ : Address) : StakingAdapter where
  getSpenderAddress := pure
  getStakeCallData := fun stakingContract notional => do
    require (notional < 256) "Unsupported"
    pure (stakingContract, 0, [0, UInt8.ofNat notional])
  getUnstakeCallData := fun stakingContract notional => do
    require (notional < 256) "Unsupported"
    pure (stakingContract, 0, [1, UInt8.ofNat notional])

def exampleContract (target : Address) (_ : Nat) (methodData : List UInt8)
    (w : World (State Unit)) : Result (World (State Unit)) :=
  let quantity := (methodData.getD 1 0).toNat
  if methodData.headD 0 = 0 then
    w.callToken 1 (·.transferFrom target w.setToken.self target quantity)
  else w.callToken 1 (·.transfer target w.setToken.self quantity)

def exampleStaking : Result (World (State Unit)) := do
  let s ← exampleCreation 10
  pure ⟨s, exampleTokens 10, ⟨fun _ => .empty, fun _ => 70, ()⟩⟩

def exampleStaked : List Action :=
  [.callSetToken (.changeController exampleController), .initializeSet 9,
    .callSetToken (.initializeModule 60), .callSetToken (.mint 60 77 (10 ^ 18)),
    .stake 9 72 1 "gauge" 4]

theorem exampleContract_outside : Outside exampleContract := by
  intro target callValue methodData w v h
  unfold exampleContract at h
  split_ifs at h
  all_goals
    have hsame := (World.callToken_sameBut h).1
    exact ⟨hsame.setToken, congrArg State.stakingPositions hsame.rest⟩

theorem exampleContract_takes : TakesAtMost exampleAdapters exampleContract 1 := by
  intro adapter stakingContract notional target callValue methodData w v hdata h
  simp only [exampleAdapters, bind_eq_ok, require_eq_ok, exists_const, pure_eq_ok,
    Prod.mk.injEq] at hdata
  obtain ⟨hsmall, rfl, rfl, rfl⟩ := hdata
  simp only [exampleContract, List.headD_cons, if_true] at h
  obtain ⟨hsame, ht⟩ := World.callToken_sameBut h
  have hmoved := (Erc20.transferFrom_moved ht).1 w.setToken.self
  rw [List.getD_cons_succ, List.getD_cons_zero, UInt8.toNat_ofNat', Nat.mod_eq_of_lt hsmall,
    if_pos rfl] at hmoved
  rw [World.balance, World.balance, hsame.setToken]
  omega

theorem exampleStaking_spec {w : World (State Unit)} (h : exampleStaking = .ok w) :
    SetTokenCreator.create { exampleController with isSet := fun _ => false } 7 100 [1] [10]
      [50, 60] 9 = .ok w.setToken ∧ w.rest.stakingPositions = fun _ => .empty := by
  simp only [exampleStaking, bind_eq_ok, pure_eq_ok] at h
  obtain ⟨s, hs, rfl⟩ := h
  exact ⟨hs, rfl⟩

/-- The steps with this adapter and this contract. -/
abbrev exampleStep : World (State Unit) → Action → Result (World (State Unit)) :=
  step exampleAdapters (fun _ => 7) exampleContract 50

theorem reachable_recorded_example : ∃ w v, exampleStaking = .ok w ∧
    runs exampleStep w (exampleStaked ++ [Action.unstake 9 72 1 "gauge" 1]) = .ok v ∧
    v.setToken.externalRealUnit 1 50 = 3 ∧ (v.rest.stakingPositions 1).units = 3 := by
  have h : (do
      let w ← exampleStaking
      let v ← runs exampleStep w (exampleStaked ++ [Action.unstake 9 72 1 "gauge" 1])
      require (Along exampleStep (Spares 50) w (exampleStaked ++ [Action.unstake 9 72 1 "gauge" 1]) ∧
        v.setToken.positionMultiplier = preciseUnitInt ∧
        v.setToken.externalRealUnit 1 50 = 3) "") = .ok () := by
    decide +kernel
  simp only [bind_eq_ok, require_eq_ok] at h
  obtain ⟨w, hw, v, hv, hspares, hone, hunit⟩ := h
  obtain ⟨hcreate, hnew⟩ := exampleStaking_spec hw
  have hunits := ((reachable_recorded hcreate hnew exampleContract_outside hspares hv).2 hone).1 1
  exact ⟨w, v, hw, hv, hunit, by omega⟩

/-- Where the multiplier has fallen to a half, what was recorded can be unstaked, and the SetToken
counts a debt that nobody has. -/
example : (do
    let w ← exampleStaking
    let v ← runs exampleStep w (exampleStaked ++
      [Action.callSetToken (.edit (.editPositionMultiplier 60 (5 * 10 ^ 17))),
        .unstake 9 72 1 "gauge" 4])
    require (v.setToken.externalRealUnit 1 50 = -2 ∧
      (v.rest.stakingPositions 1).stakingContracts = []) "") = .ok () := by
  decide +kernel

/-- For half a share two tokens are staked. -/
theorem hooks_move_external_example : ∃ w v u, exampleStaking = .ok w ∧
    runs exampleStep w exampleStaked = .ok v ∧
    componentIssueHook exampleAdapters exampleContract 50 v 60 (5 * 10 ^ 17) 1 = .ok u ∧
    v.balance 1 = 6 ∧ u.balance 1 = 4 ∧ v.balance 1 ≤ u.balance 1 +
      DebtIssuanceModule.externalEquity v.setToken 1 50 * (5 * 10 ^ 17) / preciseUnit := by
  have h : (do
      let w ← exampleStaking
      let v ← runs exampleStep w exampleStaked
      let u ← componentIssueHook exampleAdapters exampleContract 50 v 60 (5 * 10 ^ 17) 1
      require (Along exampleStep (Spares 50) w exampleStaked ∧
        v.setToken.positionMultiplier = preciseUnitInt ∧ v.balance 1 = 6 ∧ u.balance 1 = 4) "") =
          .ok () := by
    decide +kernel
  simp only [bind_eq_ok, require_eq_ok] at h
  obtain ⟨w, hw, v, hv, u, hu, hspares, hone, hbefore, hafter⟩ := h
  obtain ⟨hcreate, hnew⟩ := exampleStaking_spec hw
  exact ⟨w, v, u, hw, hv, hu, hbefore, hafter, (hooks_move_external hcreate hnew
    exampleContract_outside hspares hv hone exampleContract_takes).1 60 u hu⟩

end Example

end StakingModule

end IndexProtocol
